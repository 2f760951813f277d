import PageSheet.Token.Scan
namespace PageSheet

/-!
# Faults of a source text

A source text is no style sheet when a piece of it is left open or when its
lexemes do not fall into items.  Each fault says what is wrong; the place is kept
beside it in a failure.
-/

/-- What keeps a source text from being a style sheet. -/
inductive Fault where
  /-- A comment or a string does not end. -/
  | unclosed (piece : Lexeme.Unclosed)
  /-- A block is closed where none is open. -/
  | unexpectedRightBrace
  /-- The source ends inside a block. -/
  | unclosedBlock
  /-- The source ends inside parentheses. -/
  | unclosedBracket
  /-- A block is opened without a selector before it. -/
  | missingSelector
  /-- A declaration has nothing before its colon. -/
  | missingProperty
  /-- A statement is neither a rule nor a declaration. -/
  | unknownWord (text : Text)
  deriving Repr, DecidableEq

namespace Fault

/-- What is said about a fault. -/
def message : Fault → Text
  | .unclosed piece => piece.message
  | .unexpectedRightBrace => "Unexpected \x7d".toList
  | .unclosedBlock => "Unclosed block".toList
  | .unclosedBracket => "Unclosed bracket".toList
  | .missingSelector => "Missing selector before \x7b".toList
  | .missingProperty => "Missing property name".toList
  | .unknownWord text => "Unknown word ".toList ++ text

/-- The faults whose message is the same whatever the source. -/
def plain : List Fault :=
  [.unclosed .comment, .unclosed .string, .unexpectedRightBrace, .unclosedBlock,
    .unclosedBracket, .missingSelector, .missingProperty]

theorem mem_plain_or_eq_unknownWord
    (fault : Fault) :
    fault ∈ plain ∨ ∃ text, fault = .unknownWord text := by
  cases fault with
  | unknownWord text =>
      exact .inr ⟨text, rfl⟩
  | unclosed piece =>
      cases piece <;> exact .inl (by decide)
  | _ =>
      exact .inl (by decide)

/-- No other message starts like one about an unknown word. -/
theorem message_ne_unknownWord
    {fault : Fault}
    (isPlain : fault ∈ plain)
    (text : Text) :
    fault.message ≠ (unknownWord text).message := by
  have start : "Unknown word ".toList = ['U', 'n', 'k'] ++ "nown word ".toList := by
    decide +kernel
  have others : ∀ fault ∈ plain, fault.message.take 3 ≠ ['U', 'n', 'k'] := by
    decide +kernel
  intro same
  apply others fault isPlain
  rw [same]
  show List.take 3 ("Unknown word ".toList ++ text) = _
  rw [start, List.append_assoc]
  rfl

/-- What is said about a fault tells which one it is. -/
theorem eq_of_message_eq
    {fault other : Fault}
    (same : fault.message = other.message) :
    fault = other := by
  have apart : ∀ one ∈ plain, ∀ two ∈ plain, one.message = two.message → one = two := by
    decide +kernel
  rcases mem_plain_or_eq_unknownWord fault with isPlain | ⟨text, rfl⟩
  · rcases mem_plain_or_eq_unknownWord other with isPlain' | ⟨text, rfl⟩
    · exact apart fault isPlain other isPlain' same
    · exact absurd same (message_ne_unknownWord isPlain text)
  · rcases mem_plain_or_eq_unknownWord other with isPlain' | ⟨text', rfl⟩
    · exact absurd same.symm (message_ne_unknownWord isPlain' text)
    · rw [List.append_cancel_left same]

end Fault

namespace Failure

/-- One line that tells what kind of failure was found, where, and what it is. -/
def report
    (heading : Text)
    (message : Cause → Text)
    (failure : Failure Cause Position) :
    Text :=
  heading ++ " at line ".toList ++ Text.decimal failure.place.line
    ++ ", column ".toList ++ Text.decimal failure.place.column
    ++ [':', ' '] ++ message failure.fault

/-- The line about a source that cannot be scanned. -/
def scanReport (failure : Failure Lexeme.Unclosed Position) : Text :=
  failure.report "Lexer error".toList Lexeme.Unclosed.message

/-- The line about a source that is no style sheet. -/
def parseReport (failure : Failure Fault Position) : Text :=
  failure.report "Parse error".toList Fault.message

end Failure

end PageSheet
