import PageSheet.Proofs.Outcome
namespace PageSheet

/-!
# Brackets

Which brackets some tokens leave open can be told without parsing them.  Between
parentheses a brace counts for nothing, and a closing bracket with nothing open counts
for nothing either.  The parser keeps exactly these brackets: a block for each open
brace, and the open parentheses of the statement that it reads.

So a fault that is found at a bracket is found at the right one, and what more right
braces come to is decided by the number of open blocks.
-/

/-- The places of the brackets that are open, the innermost first. -/
structure Brackets (Place : Type) where
  parens : List Place
  braces : List Place
  deriving Repr, DecidableEq

namespace Brackets

/-- The brackets that are open behind one more token. -/
def after
    (brackets : Brackets Place)
    (token : Token Place) :
    Brackets Place :=
  match token.lexeme, brackets.parens with
  | .leftParen, parens => ⟨token.place :: parens, brackets.braces⟩
  | .rightParen, parens => ⟨parens.tail, brackets.braces⟩
  | .leftBrace, [] => ⟨[], token.place :: brackets.braces⟩
  | .rightBrace, [] => ⟨[], brackets.braces.tail⟩
  | _, _ => brackets

/-- The brackets that some tokens leave open. -/
def behind (tokens : List (Token Place)) : Brackets Place :=
  tokens.foldl after ⟨[], []⟩

/-- Open brackets with their places described in another way. -/
def relocate
    (describe : Place → Place')
    (brackets : Brackets Place) :
    Brackets Place' where
  parens :=
    brackets.parens.map describe
  braces :=
    brackets.braces.map describe

theorem after_relocate
    (describe : Place → Place')
    (brackets : Brackets Place)
    (token : Token Place) :
    (brackets.relocate describe).after (token.relocate describe) =
      (brackets.after token).relocate describe := by
  obtain ⟨parens, braces⟩ := brackets
  obtain ⟨lexeme, place⟩ := token
  cases lexeme <;> cases parens <;> simp [after, relocate, Token.relocate]

theorem behind_relocate
    (describe : Place → Place')
    (tokens : List (Token Place)) :
    behind (tokens.map (Token.relocate describe)) = (behind tokens).relocate describe := by
  have whole :
      ∀ brackets : Brackets Place,
        (tokens.map (Token.relocate describe)).foldl after (brackets.relocate describe) =
          (tokens.foldl after brackets).relocate describe := by
    induction tokens with
    | nil =>
        exact fun _ => rfl
    | cons token rest inductionHypothesis =>
        intro brackets
        rw [List.map_cons, List.foldl_cons, List.foldl_cons, after_relocate]
        exact inductionHypothesis (brackets.after token)
  exact whole ⟨[], []⟩

end Brackets

/-- Whether a fault is one of brackets, found where a bracket stands. -/
def Fault.isOfBrackets : Fault → Bool
  | .unexpectedRightBrace => true
  | .unclosedBlock => true
  | .unclosedBracket => true
  | _ => false

namespace Pending

/-- A statement without a block can fail, but not for its brackets. -/
theorem not_isOfBrackets_of_item
    {pending : Pending Place}
    {failure : Failure Fault Place}
    (refused : pending.item = .error failure) :
    failure.fault.isOfBrackets = false := by
  unfold item Prelude.declaration at refused
  split at refused
  · cases refused
  split at refused
  · cases refused
    rfl
  split at refused
  · cases refused
    rfl
  · cases refused

theorem not_isOfBrackets_of_header
    {pending : Pending Place}
    {brace : Place}
    {failure : Failure Fault Place}
    (refused : pending.header brace = .error failure) :
    failure.fault.isOfBrackets = false := by
  unfold header at refused
  split at refused
  · cases refused
  split at refused
  · cases refused
    rfl
  · cases refused

/-- A lexeme that is no colon does not decide whether a statement can end. -/
theorem exists_item_extend_iff
    {token : Token Place}
    (notColon : token.lexeme ≠ .colon)
    (pending : Pending Place) :
    (∃ item, (pending.extend token).item = .ok item) ↔
      ∃ item, pending.item = .ok item := by
  have whole : (pending.extend token).prelude = pending.prelude ++ [token.lexeme] :=
    List.reverse_cons
  have sameName : (pending.extend token).atName = pending.atName :=
    rfl
  unfold item
  rw [sameName]
  cases pending.atName with
  | some name =>
      exact iff_of_true ⟨_, rfl⟩ ⟨_, rfl⟩
  | none =>
      unfold Prelude.declaration
      rw [whole, Prelude.splitColon?_concat notColon]
      cases Prelude.splitColon? 0 pending.prelude with
      | none =>
          simp [Except.map]
      | some parts =>
          by_cases empty : Prelude.text parts.1 = [] <;> simp [Except.map, empty]

end Pending

namespace Progress

/-- The brackets that are open at some progress. -/
def brackets (progress : Progress Place) : Brackets Place where
  parens :=
    (progress.pending.map Pending.parens).getD []
  braces :=
    progress.blocks.map OpenBlock.brace

section Step

variable {progress next : Progress Place} {pending : Pending Place} {token : Token Place}

theorem brackets_endStatement
    (ended : progress.endStatement pending = .ok next) :
    next.brackets = ⟨[], progress.brackets.braces⟩ := by
  obtain ⟨item, -, rfl⟩ := exists_of_map_eq_ok ended
  rfl

theorem brackets_openBlock
    {brace : Place}
    (opened : progress.openBlock pending brace = .ok next) :
    next.brackets = ⟨[], brace :: progress.brackets.braces⟩ := by
  obtain ⟨header, -, rfl⟩ := exists_of_map_eq_ok opened
  rfl

theorem brackets_closeBlock
    {brace : Place}
    (closed : progress.closeBlock brace = .ok next) :
    next.brackets = ⟨[], progress.brackets.braces.tail⟩ := by
  obtain ⟨blocks, items, pending⟩ := progress
  cases blocks with
  | nil =>
      cases closed
  | cons block others =>
      cases closed
      rfl

/-- A statement keeps the brackets that are open behind the token it takes. -/
theorem brackets_continueStatement
    (reads : progress.brackets.parens = pending.parens)
    (taken : progress.continueStatement pending token = .ok next) :
    next.brackets = progress.brackets.after token := by
  obtain ⟨lexeme, place⟩ := token
  obtain ⟨atName, start, lexemes, parens⟩ := pending
  have whole : progress.brackets = ⟨parens, progress.brackets.braces⟩ :=
    congrArg (Brackets.mk · progress.brackets.braces) reads
  rw [whole]
  unfold continueStatement at taken
  split at taken
  · next isBrace closed =>
      cases isBrace
      cases closed
      exact brackets_openBlock taken
  · next isSemicolon closed =>
      cases isSemicolon
      cases closed
      exact brackets_endStatement taken
  · next isBrace closed =>
      cases isBrace
      cases closed
      obtain ⟨ended, ends, closes⟩ := exists_of_bind_eq_ok taken
      rw [brackets_closeBlock closes, brackets_endStatement ends]
      rfl
  · next notOpening notSeparating notClosing =>
      cases taken
      cases lexeme with
      | leftParen | rightParen =>
          rfl
      | leftBrace =>
          cases parens with
          | nil =>
              exact (notOpening rfl rfl).elim
          | cons paren others =>
              rfl
      | rightBrace =>
          cases parens with
          | nil =>
              exact (notClosing rfl rfl).elim
          | cons paren others =>
              rfl
      | _ =>
          rfl

/-- One token leads from the brackets that were open to those that are open behind it. -/
theorem brackets_step
    (taken : progress.step token = .ok next) :
    next.brackets = progress.brackets.after token := by
  obtain ⟨blocks, items, pending⟩ := progress
  cases pending with
  | some pending =>
      exact brackets_continueStatement rfl taken
  | none =>
      obtain ⟨lexeme, place⟩ := token
      cases lexeme with
      | whitespace | semicolon | endOfSource | comment | atWord =>
          cases taken
          rfl
      | rightBrace =>
          exact brackets_closeBlock taken
      | _ =>
          exact @brackets_continueStatement _ _ _ (.start none place) _ rfl taken

/-- Along any tokens the parser keeps the brackets that they leave open. -/
theorem brackets_steps
    {tokens : List (Token Place)}
    (taken : progress.steps tokens = .ok next) :
    next.brackets = tokens.foldl Brackets.after progress.brackets := by
  induction tokens generalizing progress with
  | nil =>
      cases taken
      rfl
  | cons token rest inductionHypothesis =>
      rw [steps_cons] at taken
      obtain ⟨between, first, others⟩ := exists_of_bind_eq_ok taken
      rw [inductionHypothesis others, brackets_step first]
      rfl

/-- A block can not be closed where none is open, and always where one is. -/
theorem unexpected_of_closeBlock
    {brace : Place}
    {failure : Failure Fault Place}
    (refused : progress.closeBlock brace = .error failure) :
    failure = ⟨.unexpectedRightBrace, brace⟩ ∧ progress.blocks = [] := by
  obtain ⟨blocks, items, pending⟩ := progress
  cases blocks with
  | nil =>
      cases refused
      exact ⟨rfl, rfl⟩
  | cons block others =>
      cases refused

theorem finish_of_idle
    (idle : progress.pending = none)
    (outermost : progress.blocks = []) :
    progress.finish = .ok progress.items.reverse := by
  obtain ⟨blocks, items, pending⟩ := progress
  cases idle
  cases outermost
  rfl

/--
A statement fails for its brackets only at a right brace, when the statement is
complete and no block is open.
-/
theorem unexpected_of_continueStatement
    {failure : Failure Fault Place}
    (refused : progress.continueStatement pending token = .error failure)
    (ofBrackets : failure.fault.isOfBrackets = true) :
    token.lexeme = .rightBrace ∧
      failure = ⟨.unexpectedRightBrace, token.place⟩ ∧
        pending.parens = [] ∧
          ∃ items, (progress.wait pending).finish = .ok items := by
  have notItem : pending.item ≠ .error failure := by
    intro refused
    simp [Pending.not_isOfBrackets_of_item refused] at ofBrackets
  unfold continueStatement at refused
  split at refused
  · have headed := eq_error_of_map_eq_error refused
    simp [Pending.not_isOfBrackets_of_header headed] at ofBrackets
  · exact absurd (eq_error_of_map_eq_error refused) notItem
  · next isBrace closed =>
      rcases cases_of_bind_eq_error refused with ends | ⟨ended, ends, closes⟩
      · exact absurd (eq_error_of_map_eq_error ends) notItem
      · obtain ⟨isUnexpected, outermost⟩ := unexpected_of_closeBlock closes
        obtain ⟨item, stated, rfl⟩ := exists_of_map_eq_ok ends
        refine ⟨isBrace, isUnexpected, closed, (progress.add item).items.reverse, ?_⟩
        have settles : (progress.wait pending).settle = .ok (progress.add item) := by
          simp only [settle, wait, closed, endStatement, stated]
          rfl
        have finishes := @finish_of_idle _ (progress.add item) rfl outermost
        unfold finish at finishes ⊢
        rw [settles]
        exact finishes
  · cases refused

/-- A token is refused for its brackets only where a sheet could have ended before it. -/
theorem unexpected_of_step
    {failure : Failure Fault Place}
    (refused : progress.step token = .error failure)
    (ofBrackets : failure.fault.isOfBrackets = true) :
    token.lexeme = .rightBrace ∧
      failure = ⟨.unexpectedRightBrace, token.place⟩ ∧
        progress.brackets.parens = [] ∧ ∃ items, progress.finish = .ok items := by
  obtain ⟨blocks, items, pending⟩ := progress
  cases pending with
  | some pending =>
      exact unexpected_of_continueStatement refused ofBrackets
  | none =>
      obtain ⟨lexeme, place⟩ := token
      have begins := fun refused => @unexpected_of_continueStatement _
        ⟨blocks, items, none⟩ (.start none place) ⟨lexeme, place⟩ failure refused ofBrackets
      cases lexeme with
      | whitespace | semicolon | endOfSource | comment | atWord =>
          cases refused
      | rightBrace =>
          obtain ⟨isUnexpected, outermost⟩ := unexpected_of_closeBlock refused
          exact ⟨rfl, isUnexpected, rfl, _, finish_of_idle rfl outermost⟩
      | _ =>
          cases (begins refused).1

/-- Tokens are refused at one of them, behind those before it. -/
theorem exists_step_of_steps
    {tokens : List (Token Place)}
    {failure : Failure Fault Place}
    (refused : progress.steps tokens = .error failure) :
    ∃ front token back reached,
      tokens = front ++ token :: back ∧
        progress.steps front = .ok reached ∧ reached.step token = .error failure := by
  induction tokens generalizing progress with
  | nil =>
      cases refused
  | cons token rest inductionHypothesis =>
      rw [steps_cons] at refused
      rcases cases_of_bind_eq_error refused with first | ⟨between, first, others⟩
      · exact ⟨[], token, rest, progress, rfl, rfl, first⟩
      · obtain ⟨front, last, back, reached, rfl, steps, refusedLast⟩ :=
          inductionHypothesis others
        refine ⟨token :: front, last, back, reached, rfl, ?_, refusedLast⟩
        rw [steps_cons, first]
        exact steps

end Step

/-- Whether the statement that is being read, if there is one, can end with the source. -/
def Settles
    (progress : Progress Place)
    (blocks : List (OpenBlock Place)) : Prop :=
  ∃ items, progress.settle = .ok ⟨blocks, items, none⟩

section Settling

variable {progress : Progress Place}

theorem settles_iff
    {blocks : List (OpenBlock Place)} :
    progress.Settles blocks ↔
      progress.blocks = blocks ∧
        ∀ pending ∈ progress.pending,
          pending.parens = [] ∧ ∃ item, pending.item = .ok item := by
  obtain ⟨opened, items, pending⟩ := progress
  cases pending with
  | none =>
      simp [Settles, settle]
  | some pending =>
      obtain ⟨atName, place, lexemes, parens⟩ := pending
      cases parens with
      | cons paren others =>
          simp [Settles, settle]
      | nil =>
          generalize whole : Pending.mk atName place lexemes [] = pending
          have closed : pending.parens = [] := by
            rw [← whole]
          simp only [Settles, settle, closed, endStatement]
          cases stated : pending.item with
          | error failure =>
              simp [Except.map, closed, stated]
          | ok item =>
              simp [Except.map, add, closed, stated]

/-- What settles has the same blocks open and no statement that is being read. -/
theorem eq_of_settle
    {settled : Progress Place}
    (settles : progress.settle = .ok settled) :
    settled = ⟨progress.blocks, settled.items, none⟩ := by
  obtain ⟨blocks, items, pending⟩ := progress
  cases pending with
  | none =>
      cases settles
      rfl
  | some pending =>
      obtain ⟨atName, place, lexemes, parens⟩ := pending
      cases parens with
      | nil =>
          obtain ⟨item, -, rfl⟩ := exists_of_map_eq_ok settles
          rfl
      | cons paren others =>
          cases settles

/-- A sheet can fail for its brackets at its end in two ways only. -/
theorem cases_of_finish
    {failure : Failure Fault Place}
    (refused : progress.finish = .error failure)
    (ofBrackets : failure.fault.isOfBrackets = true) :
    (failure.fault = .unclosedBracket ∧
        progress.brackets.parens.head? = some failure.place) ∨
      failure.fault = .unclosedBlock ∧
        progress.brackets.braces.head? = some failure.place ∧
          progress.Settles progress.blocks := by
  rcases cases_of_bind_eq_error refused with unsettled | ⟨settled, settles, unfinished⟩
  · obtain ⟨blocks, items, pending⟩ := progress
    cases pending with
    | none =>
        cases unsettled
    | some pending =>
        obtain ⟨atName, place, lexemes, parens⟩ := pending
        cases parens with
        | nil =>
            have stated := eq_error_of_map_eq_error unsettled
            simp [Pending.not_isOfBrackets_of_item stated] at ofBrackets
        | cons paren others =>
            cases unsettled
            exact .inl ⟨rfl, rfl⟩
  · have sameBlocks : settled.blocks = progress.blocks := by
      rw [eq_of_settle settles]
    rw [eq_of_settle settles] at settles
    simp only [sameBlocks] at unfinished
    obtain ⟨blocks, items, pending⟩ := progress
    cases blocks with
    | nil =>
        cases unfinished
    | cons block others =>
        cases unfinished
        exact .inr ⟨rfl, rfl, settled.items, settles⟩

end Settling

/--
Where a statement can end, right braces close the open blocks from the innermost one
on; with more of them than blocks the sheet has one too many, with fewer it ends inside
a block.
-/
theorem finish_closers
    {progress : Progress Unit}
    {blocks : List (OpenBlock Unit)}
    (settles : progress.Settles blocks)
    (count : Nat) :
    let finished :=
      (progress.steps (List.replicate count (Token.bare .rightBrace))).bind finish
    (count < blocks.length → finished = .error ⟨.unclosedBlock, ()⟩) ∧
      (count = blocks.length → ∃ items, finished = .ok items) ∧
        (blocks.length < count → finished = .error ⟨.unexpectedRightBrace, ()⟩) := by
  induction count generalizing progress blocks with
  | zero =>
      obtain ⟨items, settled⟩ := settles
      have finished : progress.finish = finish ⟨blocks, items, none⟩ := by
        unfold finish
        rw [settled]
        rfl
      cases blocks with
      | nil =>
          exact ⟨nofun, fun _ => ⟨_, finished⟩, nofun⟩
      | cons block others =>
          exact ⟨fun _ => finished, nofun, nofun⟩
  | succ count inductionHypothesis =>
      obtain ⟨items, settled⟩ := settles
      have step := step_rightBrace (closed_of_settle settled)
      rw [settled] at step
      rw [List.replicate_succ, steps_cons, step]
      cases blocks with
      | nil =>
          exact ⟨nofun, nofun, fun _ => rfl⟩
      | cons block others =>
          obtain ⟨fewer, equal, more⟩ :=
            @inductionHypothesis
              ⟨others, block.header.enclose items.reverse :: block.before, none⟩ others
              ⟨_, rfl⟩
          simp only [List.length_cons, Nat.add_lt_add_iff_right, Nat.add_right_cancel_iff]
          exact ⟨fewer, equal, more⟩

end Progress

end PageSheet
