import PageSheet.Proofs.Acceptance
namespace PageSheet

/-!
# Sequels

What parsing comes to from some state on is told by the state and by the tokens that follow,
up to the end of the source.  Here it is told token by token: what opens a statement, goes
on with it or ends it changes the state, and what comes out in the end stays the same.
-/

/-- Whether a statement begins with a lexeme.  At-rules do not count as statements here. -/
def Lexeme.beginsStatement : Lexeme → Bool
  | .whitespace _ => false
  | .comment _ => false
  | .atWord _ => false
  | .semicolon => false
  | .rightBrace => false
  | .endOfSource => false
  | _ => true

namespace Prelude

theorem isTerminator_iff
    {lexeme : Lexeme} :
    isTerminator lexeme = true ↔
      lexeme = .leftBrace ∨ lexeme = .semicolon ∨ lexeme = .rightBrace := by
  cases lexeme <;> simp [isTerminator]

/-- What ends a prelude and is not taken with it is a right brace or the end of the source. -/
theorem isLeft_of_ends
    {lexeme : Lexeme}
    (ends : isTerminator lexeme = true ∨ lexeme = .endOfSource)
    (notLeft : lexeme ≠ .leftBrace)
    (notSemicolon : lexeme ≠ .semicolon) :
    lexeme = .rightBrace ∨ lexeme = .endOfSource := by
  rcases ends with terminates | isEnd
  · rcases isTerminator_iff.mp terminates with isLeft | isSemicolon | isRight
    · exact absurd isLeft notLeft
    · exact absurd isSemicolon notSemicolon
    · exact .inl isRight
  · exact .inr isEnd

end Prelude

namespace Pending

/-- A statement once the rest of its prelude was read. -/
def through
    (pending : Pending Place)
    (lexemes : List Lexeme) :
    Pending Place where
  atName := pending.atName
  place := pending.place
  lexemes := lexemes.reverse ++ pending.lexemes
  parens := []

theorem through_nil
    {pending : Pending Place}
    (closed : pending.parens = []) :
    pending.through [] = pending := by
  obtain ⟨atName, place, lexemes, parens⟩ := pending
  cases closed
  rfl

theorem through_extend
    (pending : Pending Place)
    (token : Token Place)
    (lexemes : List Lexeme) :
    (pending.extend token).through lexemes = pending.through (token.lexeme :: lexemes) := by
  simp [through, extend]

section Through

variable (name : Text) (place brace : Place) (lexemes : List Lexeme)

theorem prelude_through
    (atName : Option Text) :
    ((start atName place).through lexemes).prelude = lexemes := by
  simp [prelude, through, start]

theorem item_through_none :
    ((start none place).through lexemes).item =
      (Prelude.declaration lexemes place).map .declaration := by
  unfold item
  rw [prelude_through]
  rfl

theorem header_through_none :
    ((start none place).through lexemes).header brace =
      if Prelude.text lexemes = [] then
        .error ⟨.missingSelector, brace⟩
      else
        .ok (.rule (Prelude.text lexemes) place) := by
  unfold header
  rw [prelude_through]
  rfl

theorem item_through_some :
    ((start (some name) place).through lexemes).item =
      .ok (.atStatement name (Prelude.text lexemes) place) := by
  unfold item
  rw [prelude_through]
  rfl

theorem header_through_some :
    ((start (some name) place).through lexemes).header brace =
      .ok (.atBlock name (Prelude.text lexemes) place) := by
  unfold header
  rw [prelude_through]
  rfl

end Through

end Pending

namespace Progress

/-- What comes out if some tokens follow and the source ends behind them. -/
def outcome
    (progress : Progress Place)
    (tokens : List (Token Place)) :
    Except (Failure Fault Place) (List (Item Place)) :=
  (progress.steps tokens).bind finish

section Outcome

variable {progress next : Progress Place} {token : Token Place} {tokens : List (Token Place)}

theorem outcome_of_step
    (taken : progress.step token = .ok next) :
    progress.outcome (token :: tokens) = next.outcome tokens := by
  rw [outcome, steps_cons, taken]
  rfl

theorem outcome_of_refused
    {failure : Failure Fault Place}
    (refused : progress.step token = .error failure) :
    progress.outcome (token :: tokens) = .error failure := by
  rw [outcome, steps_cons, refused]
  rfl

/-- A step that depends on a result: if it is a failure, that is what comes out. -/
theorem outcome_of_map
    {result : Except (Failure Fault Place) α}
    {onwards : α → Progress Place}
    (taken : progress.step token = result.map onwards) :
    progress.outcome (token :: tokens) =
      result.bind fun value => (onwards value).outcome tokens := by
  cases result with
  | error failure =>
      exact outcome_of_refused taken
  | ok value =>
      exact outcome_of_step taken

/-- At the end of the source everything comes to its end. -/
theorem outcome_endOfSource
    (isEnd : token.lexeme = .endOfSource) :
    progress.outcome [token] = progress.finish := by
  obtain ⟨lexeme, place⟩ := token
  cases isEnd
  rw [← progress.finish_endOfSource place, outcome, steps_cons]
  cases progress.step ⟨.endOfSource, place⟩ <;> rfl

end Outcome

section Statement

variable {blocks : List (OpenBlock Place)} {items : List (Item Place)}
  {pending : Pending Place} {token : Token Place} {tokens : List (Token Place)}

/-- What a statement begins with is the first token of its prelude. -/
theorem outcome_start
    (begins : token.lexeme.beginsStatement = true) :
    outcome ⟨blocks, items, none⟩ (token :: tokens) =
      outcome ⟨blocks, items, some (.start none token.place)⟩ (token :: tokens) := by
  obtain ⟨lexeme, place⟩ := token
  have same :
      step ⟨blocks, items, none⟩ ⟨lexeme, place⟩ =
        step ⟨blocks, items, some (.start none place)⟩ ⟨lexeme, place⟩ := by
    cases lexeme with
    | whitespace | comment | atWord | semicolon | rightBrace | endOfSource =>
        cases begins
    | _ =>
        rfl
  rw [outcome, outcome, steps_cons, steps_cons, same]

theorem outcome_extend
    (inside : Prelude.isTerminator token.lexeme = true → pending.parens ≠ []) :
    outcome ⟨blocks, items, some pending⟩ (token :: tokens) =
      outcome ⟨blocks, items, some (pending.extend token)⟩ tokens :=
  outcome_of_step (continueStatement_of_inside _ inside)

/-- A left brace behind a statement opens its block. -/
theorem outcome_leftBrace
    (closed : pending.parens = [])
    (isBrace : token.lexeme = .leftBrace) :
    outcome ⟨blocks, items, some pending⟩ (token :: tokens) =
      (pending.header token.place).bind fun header =>
        outcome ⟨⟨items, header, token.place⟩ :: blocks, [], none⟩ tokens := by
  refine outcome_of_map ?_
  simp only [step, continueStatement, isBrace, closed]
  rfl

/-- A semicolon ends a statement. -/
theorem outcome_semicolon
    (closed : pending.parens = [])
    (isSemicolon : token.lexeme = .semicolon) :
    outcome ⟨blocks, items, some pending⟩ (token :: tokens) =
      pending.item.bind fun item => outcome ⟨blocks, item :: items, none⟩ tokens := by
  refine outcome_of_map ?_
  simp only [step, continueStatement, isSemicolon, closed]
  rfl

/-- A right brace ends a statement and then closes the block, as it does between items. -/
theorem outcome_rightBrace
    (closed : pending.parens = [])
    (isBrace : token.lexeme = .rightBrace) :
    outcome ⟨blocks, items, some pending⟩ (token :: tokens) =
      pending.item.bind fun item =>
        outcome ⟨blocks, item :: items, none⟩ (token :: tokens) := by
  have ends :
      step ⟨blocks, items, some pending⟩ token =
        pending.item.bind fun item => step ⟨blocks, item :: items, none⟩ token := by
    simp only [step, continueStatement, startStatement, isBrace, closed, endStatement]
    cases pending.item <;> rfl
  cases stated : pending.item with
  | error failure =>
      rw [stated] at ends
      exact outcome_of_refused ends
  | ok item =>
      rw [stated] at ends
      simp only [outcome, steps_cons, ends, Except.bind]

/-- The end of the source ends a statement and then the sheet, as it does between items. -/
theorem outcome_last
    (closed : pending.parens = [])
    (isEnd : token.lexeme = .endOfSource) :
    outcome ⟨blocks, items, some pending⟩ [token] =
      pending.item.bind fun item => outcome ⟨blocks, item :: items, none⟩ [token] := by
  rw [outcome_endOfSource isEnd]
  simp only [outcome_endOfSource isEnd]
  simp only [finish, settle, closed, endStatement]
  cases pending.item <;> rfl

end Statement

end Progress

end PageSheet
