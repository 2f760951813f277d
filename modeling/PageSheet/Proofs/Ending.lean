import PageSheet.Item.Descent
namespace PageSheet

/-!
# Descents that end

A descent ends if it gives a result or fails, and then it leaves the cursor somewhere.  That
descents end is proved along their computation: of what is computed first, and then of
what is computed behind it.  Loops end because the cursor goes forward and the tape does
not go on for ever; rounds are paid for by the tokens that they pass.
-/

namespace Tape

/-- What it means that the last token is the end of the source, and no other one is. -/
structure IsClosed (tape : Tape Place) : Prop where
  ends : (tape.tokens.getLast tape.inhabited).lexeme = .endOfSource
  once : ∀ token ∈ tape.tokens.dropLast, token.lexeme ≠ .endOfSource

/-- The tokens from a position on. -/
def rest
    (tape : Tape Place)
    (position : Nat) :
    List (Token Place) :=
  tape.tokens.drop position

variable {tape : Tape Place} {position : Nat}

theorem rest_eq
    (within : position ≤ tape.last) :
    tape.rest position = tape.tokenAt position :: tape.rest (position + 1) := by
  have inside : position < tape.tokens.length :=
    Nat.lt_of_le_of_lt within tape.last_lt
  unfold rest tokenAt
  rw [List.drop_eq_getElem_cons inside]
  simp only [Nat.min_eq_left within, List.get_eq_getElem]

theorem rest_last :
    tape.rest tape.last = [tape.tokenAt tape.last] := by
  have behind : tape.rest (tape.last + 1) = [] := by
    refine List.drop_eq_nil_of_le ?_
    unfold last
    omega
  rw [rest_eq (Nat.le_refl _), behind]

namespace IsClosed

/-- A token is the end of the source exactly if it is the last one. -/
theorem lexeme_eq_iff
    (closed : tape.IsClosed)
    (within : position ≤ tape.last) :
    (tape.tokenAt position).lexeme = .endOfSource ↔ position = tape.last := by
  constructor
  · intro isEnd
    refine Decidable.byContradiction fun notLast => ?_
    have before : position < tape.tokens.dropLast.length := by
      rw [List.length_dropLast]
      exact Nat.lt_of_le_of_ne within notLast
    have member : tape.tokenAt position ∈ tape.tokens.dropLast := by
      refine List.mem_iff_getElem.mpr ⟨position, before, ?_⟩
      simp only [tokenAt, List.get_eq_getElem, List.getElem_dropLast, Nat.min_eq_left within]
    exact closed.once _ member isEnd
  · rintro rfl
    rw [← closed.ends, List.getLast_eq_getElem]
    simp only [tokenAt, List.get_eq_getElem, Nat.min_self, last]

theorem lt_last
    (closed : tape.IsClosed)
    (within : position ≤ tape.last)
    (notEnd : (tape.tokenAt position).lexeme ≠ .endOfSource) :
    position < tape.last :=
  Nat.lt_of_le_of_ne within fun isLast => notEnd ((closed.lexeme_eq_iff within).mpr isLast)

end IsClosed

end Tape

namespace Descent

/-- What it means that a descent ends, and how. -/
def Ends
    (descent : Descent Place α)
    (cursor : Cursor)
    (post : Except (Failure Fault Place) α → Cursor → Prop) : Prop :=
  ∃ result after, descent.run.run cursor = some (result, after) ∧ post result after

section Ending

variable {descent : Descent Place α} {cursor : Cursor}
  {post mid : Except (Failure Fault Place) α → Cursor → Prop}

theorem Ends.mono
    (ends : Ends descent cursor mid)
    (implies : ∀ result after, mid result after → post result after) :
    Ends descent cursor post := by
  obtain ⟨result, after, run, holds⟩ := ends
  exact ⟨result, after, run, implies result after holds⟩

theorem ends_pure
    {value : α}
    (holds : post (.ok value) cursor) :
    Ends (pure value) cursor post :=
  ⟨_, _, rfl, holds⟩

theorem ends_throw
    {failure : Failure Fault Place}
    (holds : post (.error failure) cursor) :
    Ends (throw failure) cursor post :=
  ⟨_, _, rfl, holds⟩

/-- If a descent ends and what follows ends wherever it leads, both together end. -/
theorem Ends.bind
    {next : α → Descent Place β}
    {post : Except (Failure Fault Place) β → Cursor → Prop}
    (ends : Ends descent cursor mid)
    (fails : ∀ failure after, mid (.error failure) after → post (.error failure) after)
    (goesOn : ∀ value after, mid (.ok value) after → Ends (next value) after post) :
    Ends (descent >>= next) cursor post := by
  obtain ⟨result, after, run, holds⟩ := ends
  have shape :
      (descent >>= next).run.run cursor =
        (descent.run.run cursor).bind fun (result, after) =>
          match result with
          | .ok value => (next value).run.run after
          | .error failure => some (.error failure, after) := by
    rw [ExceptT.run_bind, StateT.run_bind]
    rcases descent.run.run cursor with _ | ⟨_ | _, _⟩ <;> rfl
  unfold Ends
  rw [shape, run]
  cases result with
  | ok value =>
      exact goesOn value after holds
  | error failure =>
      exact ⟨_, _, rfl, fails failure after holds⟩

/-- A result that is known beforehand ends a descent at once. -/
theorem ends_ofExcept
    {result : Except (Failure Fault Place) α}
    {carry : α → β}
    {post : Except (Failure Fault Place) β → Cursor → Prop}
    (holds : post (result.map carry) cursor) :
    Ends (MonadExcept.ofExcept result >>= fun value => pure (carry value)) cursor post := by
  cases result with
  | ok value =>
      exact ends_pure holds
  | error failure =>
      exact ends_throw holds

variable (tape : Tape Place)

theorem ends_peek
    {next : Token Place → Descent Place β}
    {post : Except (Failure Fault Place) β → Cursor → Prop}
    (goesOn : Ends (next (tape.tokenAt cursor.position)) cursor post) :
    Ends (tape.peek >>= next) cursor post :=
  goesOn

theorem ends_modify
    {change : Cursor → Cursor}
    {next : PUnit → Descent Place β}
    {post : Except (Failure Fault Place) β → Cursor → Prop}
    (goesOn : Ends (next ⟨⟩) (change cursor) post) :
    Ends (modify change >>= next) cursor post :=
  goesOn

theorem ends_advance
    {next : PUnit → Descent Place β}
    {post : Except (Failure Fault Place) β → Cursor → Prop}
    (inside : cursor.position < tape.last)
    (goesOn : Ends (next ⟨⟩) cursor.next post) :
    Ends (tape.advance >>= next) cursor post := by
  refine ends_modify ?_
  rw [if_pos inside]
  exact goesOn

end Ending

/-- What it means that the cursor was moved, and over how many tokens at least. -/
structure Moves
    (tape : Tape Place)
    (before after : Cursor) : Prop where
  forwards : before.position ≤ after.position
  within : after.position ≤ tape.last
  /-- For every round that was begun there is a token. -/
  rounds : after.rounds + before.position ≤ before.rounds + after.position

namespace Moves

variable {tape : Tape Place} {before between after : Cursor}

theorem refl
    (within : before.position ≤ tape.last) :
    Moves tape before before where
  forwards := Nat.le_refl _
  within := within
  rounds := Nat.le_refl _

theorem trans
    (first : Moves tape before between)
    (second : Moves tape between after) :
    Moves tape before after where
  forwards := Nat.le_trans first.forwards second.forwards
  within := second.within
  rounds := by
    have one := first.rounds
    have two := second.rounds
    omega

/-- Tokens may be passed without a round. -/
theorem of_moveTo
    {position : Nat}
    (forwards : before.position ≤ position)
    (moves : Moves tape (before.moveTo position) after) :
    Moves tape before after where
  forwards := Nat.le_trans forwards moves.forwards
  within := moves.within
  rounds := by
    have rounds := moves.rounds
    rw [Cursor.position_moveTo, Cursor.rounds_moveTo] at rounds
    omega

/-- A token of its own pays for a round. -/
theorem of_beginRound_next
    (moves : Moves tape before.beginRound.next after) :
    Moves tape before after ∧ before.position < after.position := by
  have forwards := moves.forwards
  have rounds := moves.rounds
  simp only [Cursor.position_next, Cursor.rounds_next, Cursor.position_beginRound,
    Cursor.rounds_beginRound] at forwards rounds
  exact ⟨⟨by omega, moves.within, by omega⟩, by omega⟩

/-- A round for which no token is passed may be added beforehand. -/
theorem behindRound
    (moves : Moves tape before after) :
    Moves tape before.beginRound after where
  forwards := moves.forwards
  within := moves.within
  rounds := by
    have rounds := moves.rounds
    simp only [Cursor.rounds_beginRound, Cursor.position_beginRound]
    omega

/-- A round that both have begun does not matter. -/
theorem beginRound
    (moves : Moves tape before after) :
    Moves tape before.beginRound after.beginRound where
  forwards := moves.forwards
  within := moves.within
  rounds := by
    have rounds := moves.rounds
    simp only [Cursor.rounds_beginRound, Cursor.position_beginRound]
    omega

end Moves

/-- What holds of a cursor once it holds of all later ones holds of every cursor. -/
@[elab_as_elim]
theorem onwards
    {tape : Tape Place}
    {cursor : Cursor}
    {motive : Cursor → Prop}
    (step :
      ∀ cursor, cursor.position ≤ tape.last →
        (∀ later, cursor.position < later.position → later.position ≤ tape.last →
          motive later) →
            motive cursor)
    (within : cursor.position ≤ tape.last) :
    motive cursor := by
  induction remaining : tape.last - cursor.position using Nat.strongRecOn
    generalizing cursor with
  | ind remaining inductionHypothesis =>
      refine step cursor within fun later further laterWithin => ?_
      exact inductionHypothesis (tape.last - later.position) (by omega) laterWithin rfl

end Descent

end PageSheet
