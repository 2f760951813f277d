import PageSheet.Proofs.Acceptance
import PageSheet.Proofs.OpenPieces
namespace PageSheet

/-!
# Outcomes

The outcome of a source is what parsing it comes to, places aside: its items or its
fault.  A source either has lexemes, and then its outcome is told by them alone, or
behind some lexemes of it a piece is left open, and then that is its fault.
-/

namespace Lexeme

/-- What it means that a piece of a text is left open, behind some lexemes. -/
def LeavesOpen
    (text : Text)
    (piece : Unclosed) : Prop :=
  ∃ lexemes c others,
    Reads text lexemes (c :: others) ∧ read c others = .error piece

/-- A text that is not scanned leaves open the piece that the failure tells. -/
theorem leavesOpen_of_scanFrom
    {position : Position}
    {text : Text}
    {failure : Failure Unclosed Position}
    (refused : Token.scanFrom position text = .error failure) :
    LeavesOpen text failure.fault := by
  obtain ⟨before, behind, lexemes, -, reads, starts, -⟩ :=
    Token.exists_startsOpen_of_scanFrom refused
  obtain ⟨c, others, rfl⟩ := List.exists_cons_of_ne_nil starts.ne_nil
  exact ⟨lexemes, c, others, reads, read_eq_error_iff.mpr starts⟩

/-- A text with a piece left open is not scanned. -/
theorem LeavesOpen.exists_scanFrom
    {text : Text}
    {piece : Unclosed}
    (leaves : LeavesOpen text piece)
    (position : Position) :
    ∃ place, Token.scanFrom position text = .error ⟨piece, place⟩ := by
  obtain ⟨lexemes, c, others, reads, left⟩ := leaves
  obtain ⟨before, rfl, -⟩ := reads.exchange
  exact ⟨_, Token.scanFrom_of_startsOpen reads (read_eq_error_iff.mp left) position⟩

/-- What stands behind some lexemes of a text is left open in the text, too. -/
theorem Reads.leavesOpen
    {text rest : Text}
    {lexemes : List Lexeme}
    {piece : Unclosed}
    (reads : Reads text lexemes rest)
    (leaves : LeavesOpen rest piece) :
    LeavesOpen text piece := by
  obtain ⟨others, c, behind, more, left⟩ := leaves
  exact ⟨lexemes ++ others, c, behind, reads.append more, left⟩

/-- A text is read up to its end or leaves a piece open. -/
theorem exists_reads_or_leavesOpen
    (text : Text) :
    (∃ lexemes, Reads text lexemes []) ∨ ∃ piece, LeavesOpen text piece := by
  cases scanned : Token.scan text with
  | ok tokens =>
      obtain ⟨lexemes, -, reads⟩ := reads_of_scanFrom scanned
      exact .inl ⟨lexemes, reads⟩
  | error failure =>
      exact .inr ⟨failure.fault, leavesOpen_of_scanFrom scanned⟩

end Lexeme

namespace Item

/-- The items of a source are made of its tokens. -/
theorem exists_tokens_of_ofSource
    {source : Text}
    {items : List (Item Span)}
    (parsed : ofSource source = .ok items) :
    ∃ tokens, Token.scan source = .ok tokens ∧ ofTokens tokens = .ok items := by
  unfold ofSource at parsed
  split at parsed
  · cases parsed
  · next tokens scanned =>
      cases made : ofTokens tokens with
      | ok others =>
          rw [made] at parsed
          cases parsed
          exact ⟨tokens, scanned, made⟩
      | error failure =>
          rw [made] at parsed
          cases parsed

/-- A source is refused because it is not scanned, or for what its tokens make up. -/
theorem cases_of_ofSource
    {source : Text}
    {failure : Failure Fault Position}
    (refused : ofSource source = .error failure) :
    (∃ refusal,
        Token.scan source = .error refusal ∧
          failure = ⟨.unclosed refusal.fault, refusal.place⟩) ∨
      ∃ tokens unplaced,
        Token.scan source = .ok tokens ∧
          ofTokens tokens = .error unplaced ∧ failure = unplaced.relocate Span.start := by
  unfold ofSource at refused
  split at refused
  · next refusal scanned =>
      cases refused
      exact .inl ⟨refusal, scanned, rfl⟩
  · next tokens scanned =>
      cases made : ofTokens tokens with
      | ok items =>
          rw [made] at refused
          cases refused
      | error unplaced =>
          rw [made] at refused
          cases refused
          exact .inr ⟨tokens, unplaced, scanned, made, rfl⟩

/-- What parsing a source comes to, places aside: its items or its fault. -/
def outcome (source : Text) : Except (Failure Fault Unit) (List (Item Unit)) :=
  relocated (fun _ => ()) bare (ofSource source)

/-- What lexemes come to when the source ends behind them. -/
def ofLexemes (lexemes : List Lexeme) :
    Except (Failure Fault Unit) (List (Item Unit)) :=
  (Progress.initial.steps (lexemes.map Token.bare)).bind Progress.finish

/-- The outcome of a source that is read up to its end is told by its lexemes. -/
theorem outcome_of_reads
    {source : Text}
    {lexemes : List Lexeme}
    (reads : Lexeme.Reads source lexemes []) :
    outcome source = ofLexemes lexemes := by
  obtain ⟨tokens, scanned, shape⟩ := reads.exists_scanFrom Position.start
  have scanned : Token.scan source = .ok tokens :=
    scanned
  have told := ofTokens_relocate (fun _ => ()) tokens
  have bareTokens :
      tokens.map (Token.relocate fun _ => ()) =
        (lexemes ++ [Lexeme.endOfSource]).map Token.bare := by
    rw [← shape, List.map_map]
    rfl
  rw [bareTokens, ofTokens_endOfSource] at told
  have parsing :
      ofSource source = (ofTokens tokens).mapError (Failure.relocate Span.start) := by
    simp only [ofSource, scanned]
  rw [outcome, ofLexemes, told, parsing]
  cases ofTokens tokens <;> rfl

/-- The fault of a source with a piece left open is that piece. -/
theorem outcome_of_leavesOpen
    {source : Text}
    {piece : Lexeme.Unclosed}
    (leaves : Lexeme.LeavesOpen source piece) :
    outcome source = .error ⟨.unclosed piece, ()⟩ := by
  obtain ⟨place, refused⟩ := leaves.exists_scanFrom Position.start
  have refused : Token.scan source = .error ⟨piece, place⟩ :=
    refused
  rw [outcome, ofSource, refused]
  rfl

theorem outcome_of_ok
    {source : Text}
    {items : List (Item Span)}
    (parsed : ofSource source = .ok items) :
    outcome source = .ok (bare items) := by
  rw [outcome, parsed]
  rfl

theorem outcome_of_error
    {source : Text}
    {failure : Failure Fault Position}
    (refused : ofSource source = .error failure) :
    outcome source = .error ⟨failure.fault, ()⟩ := by
  rw [outcome, refused]
  rfl

theorem exists_of_outcome_eq_ok
    {source : Text}
    {sheet : List (Item Unit)}
    (comes : outcome source = .ok sheet) :
    ∃ items, ofSource source = .ok items ∧ bare items = sheet := by
  cases parsed : ofSource source with
  | ok items =>
      rw [outcome_of_ok parsed] at comes
      exact ⟨items, rfl, Except.ok.inj comes⟩
  | error failure =>
      rw [outcome_of_error parsed] at comes
      cases comes

theorem exists_of_outcome_eq_error
    {source : Text}
    {failure : Failure Fault Unit}
    (comes : outcome source = .error failure) :
    ∃ refusal, ofSource source = .error refusal ∧ refusal.fault = failure.fault := by
  cases parsed : ofSource source with
  | ok items =>
      rw [outcome_of_ok parsed] at comes
      cases comes
  | error refusal =>
      rw [outcome_of_error parsed] at comes
      cases comes
      exact ⟨refusal, rfl, rfl⟩

/-- Sources that come to the same, up to a function of their items, are sheets alike. -/
theorem exists_ofSource_iff_of_outcome
    {carry : List (Item Unit) → List (Item Unit)}
    {source other : Text}
    (same : relocated id carry (outcome other) = relocated id carry (outcome source)) :
    (∃ items, ofSource other = .ok items) ↔ ∃ items, ofSource source = .ok items := by
  cases parsed : ofSource source with
  | ok items =>
      cases parsedOther : ofSource other with
      | ok others =>
          simp
      | error failure =>
          rw [outcome_of_ok parsed, outcome_of_error parsedOther] at same
          cases same
  | error failure =>
      cases parsedOther : ofSource other with
      | ok others =>
          rw [outcome_of_error parsed, outcome_of_ok parsedOther] at same
          cases same
      | error failure' =>
          simp

/-- Sources that come to the same are refused with the same message. -/
theorem message_eq_of_outcome
    {carry : List (Item Unit) → List (Item Unit)}
    {source other : Text}
    (same : relocated id carry (outcome other) = relocated id carry (outcome source))
    {failure failure' : Failure Fault Position}
    (refused : ofSource source = .error failure)
    (refusedOther : ofSource other = .error failure') :
    failure'.fault.message = failure.fault.message := by
  rw [outcome_of_error refused, outcome_of_error refusedOther] at same
  have sameFault := congrArg Failure.fault (Except.error.inj same)
  exact congrArg Fault.message sameFault

end Item

end PageSheet
