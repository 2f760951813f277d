import PageSheet.Proofs.Ending
import PageSheet.Proofs.Sequel
namespace PageSheet

/-!
# What a descent comes to

A descent over tokens of which the last one, and no other, is the end of the source always
gives a result.  Every round of a block that does not close it takes a token of its own, and
behind the end of the source nothing can be taken; so there are no more rounds than tokens.
The tokens of a source are such tokens.

What the descent gives is what parsing token by token gives: between two items of a block,
it depends only on the open blocks and on the tokens that follow, and each part of the
descent is a part of that.
-/

/-- The tokens of a source are closed. -/
theorem Tape.exists_isClosed_of_scan
    {source : Text}
    {tokens : List (Token Span)}
    (scanned : Token.scan source = .ok tokens) :
    ∃ inhabited, IsClosed ⟨tokens, inhabited⟩ := by
  obtain ⟨lexemes, ends, reads⟩ := Lexeme.reads_of_scanFrom scanned
  have inhabited : tokens ≠ [] := by
    rintro rfl
    exact List.append_ne_nil_of_right_ne_nil lexemes (List.cons_ne_nil _ _) ends.symm
  refine ⟨inhabited, ?_, ?_⟩
  · have last : (tokens.map Token.lexeme).getLast? = some .endOfSource := by
      rw [ends, List.getLast?_concat]
    rw [List.getLast?_map, List.getLast?_eq_some_getLast inhabited] at last
    exact Option.some.inj last
  · intro token member isEnd
    have among : token.lexeme ∈ tokens.dropLast.map Token.lexeme :=
      List.mem_map_of_mem member
    rw [List.map_dropLast, ends, List.dropLast_concat, isEnd] at among
    exact reads.endOfSource_not_mem among

namespace Descent

open Progress

/-- What skipping white space comes to. -/
structure SkipsBlanks
    (tape : Tape Place)
    (before after : Cursor) : Prop where
  moved : ∃ position, after = before.moveTo position
  forwards : before.position ≤ after.position
  within : after.position ≤ tape.last
  stops : ∀ text, (tape.tokenAt after.position).lexeme ≠ .whitespace text
  agrees :
    ∀ blocks items,
      outcome ⟨blocks, items, none⟩ (tape.rest before.position) =
        outcome ⟨blocks, items, none⟩ (tape.rest after.position)

/-- What reading a prelude comes to, for a statement with some open parentheses. -/
inductive ReadsPrelude
    (tape : Tape Place)
    (parens : List Place)
    (before : Cursor) :
    Except (Failure Fault Place) (List Lexeme) → Cursor → Prop where
  | read
      {lexemes : List Lexeme}
      {position : Nat} :
      before.position ≤ position →
      position ≤ tape.last →
      (Prelude.isTerminator (tape.tokenAt position).lexeme = true ∨
        (tape.tokenAt position).lexeme = .endOfSource) →
      (∀ blocks items pending,
        pending.parens = parens →
          outcome ⟨blocks, items, some pending⟩ (tape.rest before.position) =
            outcome ⟨blocks, items, some (pending.through lexemes)⟩ (tape.rest position)) →
      ReadsPrelude tape parens before (.ok lexemes) (before.moveTo position)
  | failed
      {failure : Failure Fault Place}
      {position : Nat} :
      before.position ≤ position →
      position ≤ tape.last →
      (∀ blocks items pending,
        pending.parens = parens →
          outcome ⟨blocks, items, some pending⟩ (tape.rest before.position) =
            .error failure) →
      ReadsPrelude tape parens before (.error failure) (before.moveTo position)

/-- What reading an item comes to: it takes a token for which no round was begun. -/
inductive ReadsItem
    (tape : Tape Place)
    (before : Cursor) :
    Except (Failure Fault Place) (Item Place) → Cursor → Prop where
  | read
      {item : Item Place}
      {after : Cursor} :
      Moves tape before.next after →
      (∀ blocks items,
        outcome ⟨blocks, items, none⟩ (tape.rest before.position) =
          outcome ⟨blocks, item :: items, none⟩ (tape.rest after.position)) →
      ReadsItem tape before (.ok item) after
  | failed
      {failure : Failure Fault Place}
      {after : Cursor} :
      Moves tape before after →
      (∀ blocks items,
        outcome ⟨blocks, items, none⟩ (tape.rest before.position) = .error failure) →
      ReadsItem tape before (.error failure) after

/-- What a round of a block that was begun comes to: it takes a token unless it is the last. -/
inductive ReadsRound
    (tape : Tape Place)
    (before : Cursor) :
    Option Place → Except (Failure Fault Place) (Round Place) → Cursor → Prop where
  | closed
      {brace : Place}
      {after : Cursor} :
      Moves tape before.next after →
      (∀ block blocks items,
        outcome ⟨block :: blocks, items, none⟩ (tape.rest before.position) =
          outcome ⟨blocks, block.header.enclose items.reverse :: block.before, none⟩
            (tape.rest after.position)) →
      ReadsRound tape before (some brace) (.ok .ended) after
  | finished
      {after : Cursor} :
      Moves tape before after →
      (∀ items,
        outcome ⟨[], items, none⟩ (tape.rest before.position) = .ok items.reverse) →
      ReadsRound tape before none (.ok .ended) after
  | separator
      {brace? : Option Place}
      {after : Cursor} :
      Moves tape before.next after →
      (∀ blocks items,
        outcome ⟨blocks, items, none⟩ (tape.rest before.position) =
          outcome ⟨blocks, items, none⟩ (tape.rest after.position)) →
      ReadsRound tape before brace? (.ok .separator) after
  | item
      {brace? : Option Place}
      {item : Item Place}
      {after : Cursor} :
      Moves tape before.next after →
      (∀ blocks items,
        outcome ⟨blocks, items, none⟩ (tape.rest before.position) =
          outcome ⟨blocks, item :: items, none⟩ (tape.rest after.position)) →
      ReadsRound tape before brace? (.ok (.item item)) after
  | failed
      {brace? : Option Place}
      {failure : Failure Fault Place}
      {after : Cursor} :
      Moves tape before after →
      (∀ blocks items, blocks.head?.map OpenBlock.brace = brace? →
        outcome ⟨blocks, items, none⟩ (tape.rest before.position) = .error failure) →
      ReadsRound tape before brace? (.error failure) after

/--
What the rounds of a block come to, behind the items that were read before.  Only the last
round of all may be one for which there is no token.
-/
inductive ReadsBlock
    (tape : Tape Place)
    (items : List (Item Place))
    (before : Cursor) :
    Option Place → Except (Failure Fault Place) (List (Item Place)) → Cursor → Prop where
  | closed
      {brace : Place}
      {children : List (Item Place)}
      {after : Cursor} :
      Moves tape before after →
      (∀ block blocks,
        outcome ⟨block :: blocks, items, none⟩ (tape.rest before.position) =
          outcome ⟨blocks, block.header.enclose children :: block.before, none⟩
            (tape.rest after.position)) →
      ReadsBlock tape items before (some brace) (.ok children) after
  | finished
      {sheet : List (Item Place)}
      {after : Cursor} :
      Moves tape before.beginRound after →
      outcome ⟨[], items, none⟩ (tape.rest before.position) = .ok sheet →
      ReadsBlock tape items before none (.ok sheet) after
  | failed
      {brace? : Option Place}
      {failure : Failure Fault Place}
      {after : Cursor} :
      Moves tape before.beginRound after →
      (∀ blocks, blocks.head?.map OpenBlock.brace = brace? →
        outcome ⟨blocks, items, none⟩ (tape.rest before.position) = .error failure) →
      ReadsBlock tape items before brace? (.error failure) after

/-- What it means that a statement was read from the cursor up to the end of its prelude. -/
structure Follows
    (tape : Tape Place)
    (before : Cursor)
    (pending : Pending Place)
    (position : Nat) : Prop where
  forwards : before.position ≤ position
  within : position ≤ tape.last
  outside : pending.parens = []
  agrees :
    ∀ blocks items,
      outcome ⟨blocks, items, none⟩ (tape.rest before.position) =
        outcome ⟨blocks, items, some pending⟩ (tape.rest position)

section Reading

variable {tape : Tape Place} {cursor : Cursor}

/-- The token at a position comes first of those from there on. -/
theorem outcome_rest
    {position : Nat}
    {progress : Progress Place}
    (within : position ≤ tape.last) :
    progress.outcome (tape.rest position) =
      (progress.step (tape.tokenAt position)).bind fun next =>
        next.outcome (tape.rest (position + 1)) := by
  rw [Tape.rest_eq within, outcome, steps_cons]
  cases progress.step (tape.tokenAt position) <;> rfl

theorem outcome_rest_endOfSource
    {position : Nat}
    {progress : Progress Place}
    (closed : tape.IsClosed)
    (within : position ≤ tape.last)
    (isEnd : (tape.tokenAt position).lexeme = .endOfSource) :
    progress.outcome (tape.rest position) = progress.finish := by
  obtain rfl := (closed.lexeme_eq_iff within).mp isEnd
  rw [Tape.rest_last, outcome_endOfSource isEnd]

theorem ends_skipBlanks
    (closed : tape.IsClosed)
    (within : cursor.position ≤ tape.last) :
    Ends tape.skipBlanks cursor fun result after =>
      result = .ok ⟨⟩ ∧ SkipsBlanks tape cursor after := by
  refine onwards ?_ within
  intro cursor within inductionHypothesis
  rw [Tape.skipBlanks]
  refine ends_peek tape ?_
  split
  · next text isBlank =>
      have inside := closed.lt_last within (by simp [isBlank])
      refine ends_advance tape inside ?_
      have later :=
        inductionHypothesis cursor.next (Nat.lt_succ_self _) inside
      refine later.mono ?_
      rintro _ after ⟨rfl, ⟨position, rfl⟩, forwards, within, stops, agrees⟩
      refine ⟨rfl, ⟨position, rfl⟩, Nat.le_of_succ_le forwards, within, stops, ?_⟩
      intro blocks items
      rw [outcome_rest (Nat.le_of_lt inside)]
      simp only [step, startStatement, isBlank]
      exact agrees blocks items
  · next notBlank =>
      exact ends_pure ⟨rfl, ⟨cursor.position, rfl⟩, Nat.le_refl _, within, notBlank,
        fun _ _ => rfl⟩

/-- At its end a prelude is empty. -/
theorem readsPrelude_nil
    (within : cursor.position ≤ tape.last)
    (ends :
      Prelude.isTerminator (tape.tokenAt cursor.position).lexeme = true ∨
        (tape.tokenAt cursor.position).lexeme = .endOfSource) :
    ReadsPrelude tape [] cursor (.ok []) cursor :=
  .read (Nat.le_refl _) within ends fun _ _ _ outside => by
    rw [Pending.through_nil outside]

theorem ends_prelude
    (closed : tape.IsClosed)
    (within : cursor.position ≤ tape.last)
    (opened : List Place) :
    Ends (tape.prelude opened) cursor (ReadsPrelude tape opened cursor) := by
  revert opened
  refine onwards ?_ within
  intro cursor within inductionHypothesis opened
  rw [Tape.prelude]
  refine ends_peek tape ?_
  split
  · next paren outer isEnd =>
      refine ends_throw (.failed (Nat.le_refl _) within fun blocks items pending isOpen => ?_)
      rw [outcome_rest_endOfSource closed within isEnd]
      simp only [finish, settle, isOpen]
      rfl
  · next isEnd =>
      exact ends_pure (readsPrelude_nil within (.inr isEnd))
  · next isBrace =>
      exact ends_pure (readsPrelude_nil within (.inl (by rw [isBrace]; rfl)))
  · next isSemicolon =>
      exact ends_pure (readsPrelude_nil within (.inl (by rw [isSemicolon]; rfl)))
  · next isBrace =>
      exact ends_pure (readsPrelude_nil within (.inl (by rw [isBrace]; rfl)))
  · next opened _ _ notUnclosed notEnd notLeft notSemicolon notRight =>
      have further : cursor.position < tape.last := by
        refine closed.lt_last within fun isEnd => ?_
        cases opened with
        | nil =>
            exact notEnd isEnd rfl
        | cons paren outer =>
            exact notUnclosed paren outer isEnd rfl
      have inside :
          Prelude.isTerminator (tape.tokenAt cursor.position).lexeme = true →
            opened ≠ [] := by
        rintro terminates rfl
        rcases Prelude.isTerminator_iff.mp terminates with isLeft | isSemicolon | isRight
        · exact notLeft isLeft rfl
        · exact notSemicolon isSemicolon rfl
        · exact notRight isRight rfl
      have later :=
        inductionHypothesis cursor.next (Nat.lt_succ_self _) further
      have goesOn :
          ∀ (blocks : List (OpenBlock Place)) items pending, pending.parens = opened →
            outcome ⟨blocks, items, some pending⟩ (tape.rest cursor.position) =
              outcome ⟨blocks, items, some (pending.extend (tape.tokenAt cursor.position))⟩
                (tape.rest (cursor.position + 1)) := by
        rintro blocks items pending rfl
        rw [Tape.rest_eq within, outcome_extend inside]
      refine ends_advance tape further ((later _).bind ?_ ?_)
      · rintro failure _ (_ | ⟨forwards, within, fails⟩)
        refine .failed (Nat.le_of_succ_le forwards) within ?_
        rintro blocks items pending rfl
        rw [goesOn blocks items pending rfl]
        exact fails blocks items _ rfl
      · rintro lexemes _ (⟨forwards, within, ends, agrees⟩ | _)
        refine ends_pure (.read (Nat.le_of_succ_le forwards) within ends ?_)
        rintro blocks items pending rfl
        rw [goesOn blocks items pending rfl, ← Pending.through_extend]
        exact agrees blocks items _ rfl

section Items

variable {pending : Pending Place} {position : Nat}

theorem readsItem_of_item
    (further : cursor.position < position)
    (within : position ≤ tape.last)
    (agrees :
      ∀ blocks items,
        outcome ⟨blocks, items, none⟩ (tape.rest cursor.position) =
          pending.item.bind fun item =>
            outcome ⟨blocks, item :: items, none⟩ (tape.rest position)) :
    ReadsItem tape cursor pending.item (cursor.moveTo position) := by
  cases stated : pending.item with
  | error failure =>
      rw [stated] at agrees
      exact .failed (.of_moveTo (Nat.le_of_lt further) (.refl within)) agrees
  | ok item =>
      rw [stated] at agrees
      exact .read (.of_moveTo further (.refl within)) agrees

/-- A statement that a semicolon ends is an item. -/
theorem Follows.readsItem_semicolon
    (follows : Follows tape cursor pending position)
    (further : position < tape.last)
    (isSemicolon : (tape.tokenAt position).lexeme = .semicolon) :
    ReadsItem tape cursor pending.item (cursor.moveTo (position + 1)) := by
  refine readsItem_of_item (Nat.lt_succ_of_le follows.forwards) further ?_
  intro blocks items
  rw [follows.agrees, Tape.rest_eq follows.within,
    outcome_semicolon follows.outside isSemicolon]

/-- A statement that is ended by what is left for the block around it is an item. -/
theorem Follows.readsItem_left
    (closed : tape.IsClosed)
    (follows : Follows tape cursor pending position)
    (further : cursor.position < position)
    (isLeft :
      (tape.tokenAt position).lexeme = .rightBrace ∨
        (tape.tokenAt position).lexeme = .endOfSource) :
    ReadsItem tape cursor pending.item (cursor.moveTo position) := by
  refine readsItem_of_item further follows.within ?_
  intro blocks items
  rw [follows.agrees]
  rcases isLeft with isBrace | isEnd
  · rw [Tape.rest_eq follows.within, outcome_rightBrace follows.outside isBrace]
  · obtain rfl := (closed.lexeme_eq_iff follows.within).mp isEnd
    rw [Tape.rest_last, outcome_last follows.outside isEnd]

/-- A statement that cannot have a block is refused behind the left brace. -/
theorem Follows.readsItem_refused
    {failure : Failure Fault Place}
    (follows : Follows tape cursor pending position)
    (further : position < tape.last)
    (isBrace : (tape.tokenAt position).lexeme = .leftBrace)
    (headed : pending.header (tape.tokenAt position).place = .error failure) :
    ReadsItem tape cursor (.error failure) (cursor.moveTo (position + 1)) := by
  refine .failed (.of_moveTo (Nat.le_succ_of_le follows.forwards) (.refl further)) ?_
  intro blocks items
  rw [follows.agrees, Tape.rest_eq follows.within,
    outcome_leftBrace follows.outside isBrace, headed]
  rfl

/-- A statement with a block is an item once the block was read. -/
theorem Follows.ends_nested
    {header : Header Place}
    (follows : Follows tape cursor pending position)
    (isBrace : (tape.tokenAt position).lexeme = .leftBrace)
    (headed : pending.header (tape.tokenAt position).place = .ok header)
    (inner :
      Ends (tape.block (some (tape.tokenAt position).place) [])
        (cursor.moveTo position).next.openBlock
        (ReadsBlock tape [] (cursor.moveTo position).next.openBlock
          (some (tape.tokenAt position).place))) :
    Ends
      (tape.block (some (tape.tokenAt position).place) [] >>= fun children =>
        pure (header.enclose children))
      (cursor.moveTo position).next.openBlock (ReadsItem tape cursor) := by
  have opens :
      ∀ blocks items,
        outcome ⟨blocks, items, none⟩ (tape.rest cursor.position) =
          outcome ⟨⟨items, header, (tape.tokenAt position).place⟩ :: blocks, [], none⟩
            (tape.rest (position + 1)) := by
    intro blocks items
    rw [follows.agrees, Tape.rest_eq follows.within,
      outcome_leftBrace follows.outside isBrace, headed]
    rfl
  refine inner.bind ?_ ?_
  · rintro failure after (_ | _ | ⟨moves, fails⟩)
    -- The left brace pays for the round that failed in the block.
    have moves : Moves tape (cursor.moveTo position).beginRound.next after :=
      ⟨moves.forwards, moves.within, moves.rounds⟩
    refine .failed (.of_moveTo follows.forwards moves.of_beginRound_next.1) ?_
    intro blocks items
    rw [opens]
    exact fails _ rfl
  · rintro children after (⟨moves, agrees⟩ | _ | _)
    have moves : Moves tape (cursor.next.moveTo (position + 1)) after :=
      ⟨moves.forwards, moves.within, moves.rounds⟩
    refine ends_pure (.read (.of_moveTo (Nat.succ_le_succ follows.forwards) moves) ?_)
    intro blocks items
    rw [opens]
    exact agrees _ _

end Items

/-- What it means that blocks end that are opened behind the cursor. -/
def InnerEnds
    (tape : Tape Place)
    (cursor : Cursor) : Prop :=
  ∀ (brace : Place) (inside : Cursor),
    cursor.position < inside.position → inside.position ≤ tape.last →
      Ends (tape.block (some brace) []) inside (ReadsBlock tape [] inside (some brace))

theorem ends_statement
    (closed : tape.IsClosed)
    (within : cursor.position ≤ tape.last)
    (begins : (tape.tokenAt cursor.position).lexeme.beginsStatement = true)
    (inner : InnerEnds tape cursor) :
    Ends tape.statement cursor (ReadsItem tape cursor) := by
  have starts :
      ∀ (blocks : List (OpenBlock Place)) items,
        outcome ⟨blocks, items, none⟩ (tape.rest cursor.position) =
          outcome ⟨blocks, items, some (.start none (tape.tokenAt cursor.position).place)⟩
            (tape.rest cursor.position) := by
    intro blocks items
    rw [Tape.rest_eq within, outcome_start begins]
  rw [Tape.statement]
  refine ends_peek tape ((ends_prelude closed within []).bind ?_ ?_)
  · rintro failure _ (_ | ⟨forwards, within, fails⟩)
    refine .failed (.of_moveTo forwards (.refl within)) fun blocks items => ?_
    rw [starts]
    exact fails _ _ _ rfl
  · rintro lexemes _ (@⟨_, position, forwards, within, ends, agrees⟩ | _)
    have follows :
        Follows tape cursor
          ((Pending.start none (tape.tokenAt cursor.position).place).through lexemes)
          position :=
      ⟨forwards, within, rfl, fun blocks items => by rw [starts]; exact agrees _ _ _ rfl⟩
    refine ends_peek tape ?_
    simp only [Cursor.position_moveTo]
    split
    · next isBrace =>
        have further := closed.lt_last within (by simp [isBrace])
        refine ends_advance tape further ?_
        have headed := Pending.header_through_none
          (tape.tokenAt cursor.position).place (tape.tokenAt position).place lexemes
        split
        · next empty =>
            rw [if_pos empty] at headed
            exact ends_throw (follows.readsItem_refused further isBrace headed)
        · next inhabited =>
            rw [if_neg inhabited] at headed
            refine ends_modify (follows.ends_nested isBrace headed ?_)
            exact inner _ _ (Nat.lt_succ_of_le forwards) further
    · next isSemicolon =>
        have further := closed.lt_last within (by simp [isSemicolon])
        have reads := follows.readsItem_semicolon further isSemicolon
        rw [Pending.item_through_none] at reads
        exact ends_advance tape further (ends_ofExcept reads)
    · next notLeft notSemicolon =>
        have isLeft := Prelude.isLeft_of_ends ends notLeft notSemicolon
        have further : cursor.position < position := by
          -- What is left for the block around a statement does not begin one.
          refine Nat.lt_of_le_of_ne forwards ?_
          rintro rfl
          rcases isLeft with isBrace | isEnd
          · rw [isBrace] at begins
            cases begins
          · rw [isEnd] at begins
            cases begins
        have reads := follows.readsItem_left closed further isLeft
        rw [Pending.item_through_none] at reads
        exact ends_ofExcept reads

theorem ends_atRule
    {name : Text}
    (closed : tape.IsClosed)
    (within : cursor.position ≤ tape.last)
    (isAtWord : (tape.tokenAt cursor.position).lexeme = .atWord name)
    (inner : InnerEnds tape cursor) :
    Ends (tape.atRule name) cursor (ReadsItem tape cursor) := by
  have starts :
      ∀ (blocks : List (OpenBlock Place)) items,
        outcome ⟨blocks, items, none⟩ (tape.rest cursor.position) =
          outcome
            ⟨blocks, items, some (.start (some name) (tape.tokenAt cursor.position).place)⟩
            (tape.rest (cursor.position + 1)) := by
    intro blocks items
    rw [outcome_rest within]
    simp only [step, startStatement, isAtWord]
    rfl
  have further := closed.lt_last within (by simp [isAtWord])
  have prelude :=
    @ends_prelude _ tape cursor.next closed further []
  rw [Tape.atRule]
  refine ends_peek tape (ends_advance tape further (prelude.bind ?_ ?_))
  · rintro failure _ (_ | ⟨forwards, within, fails⟩)
    rw [Cursor.position_next] at forwards
    refine .failed (.of_moveTo (Nat.le_of_succ_le forwards) (.refl within)) ?_
    intro blocks items
    rw [starts]
    exact fails _ _ _ rfl
  · rintro lexemes _ (@⟨_, position, forwards, within, ends, agrees⟩ | _)
    rw [Cursor.position_next] at forwards
    have follows :
        Follows tape cursor
          ((Pending.start (some name) (tape.tokenAt cursor.position).place).through lexemes)
          position :=
      ⟨Nat.le_of_succ_le forwards, within, rfl,
        fun blocks items => by rw [starts]; exact agrees _ _ _ rfl⟩
    refine ends_peek tape ?_
    simp only [Cursor.position_moveTo]
    split
    · next isBrace =>
        have further := closed.lt_last within (by simp [isBrace])
        have headed := Pending.header_through_some name
          (tape.tokenAt cursor.position).place (tape.tokenAt position).place lexemes
        refine ends_advance tape further (ends_modify ?_)
        refine follows.ends_nested isBrace headed ?_
        exact inner _ _ (Nat.lt_succ_of_le follows.forwards) further
    · next isSemicolon =>
        have further := closed.lt_last within (by simp [isSemicolon])
        have reads := follows.readsItem_semicolon further isSemicolon
        rw [Pending.item_through_some] at reads
        exact ends_advance tape further (ends_pure reads)
    · next notLeft notSemicolon =>
        have isLeft := Prelude.isLeft_of_ends ends notLeft notSemicolon
        have reads := follows.readsItem_left closed forwards isLeft
        rw [Pending.item_through_some] at reads
        exact ends_pure reads

/-- An item that a round reads is what the round comes to. -/
theorem ends_item
    {descent : Descent Place (Item Place)}
    {brace? : Option Place}
    (reads : Ends descent cursor (ReadsItem tape cursor)) :
    Ends (descent >>= fun item => pure (.item item)) cursor
      (ReadsRound tape cursor brace?) := by
  refine reads.bind ?_ ?_
  · rintro failure after (_ | ⟨moves, fails⟩)
    exact .failed moves fun blocks items _ => fails blocks items
  · rintro item after (⟨moves, agrees⟩ | _)
    exact ends_pure (.item moves agrees)

/-- The white space before what a round reads does not matter. -/
theorem ReadsRound.behindBlanks
    {here after : Cursor}
    {brace? : Option Place}
    {result : Except (Failure Fault Place) (Round Place)}
    (skips : SkipsBlanks tape cursor here)
    (reads : ReadsRound tape here brace? result after) :
    ReadsRound tape cursor brace? result after := by
  obtain ⟨⟨position, rfl⟩, forwards, -, -, agrees⟩ := skips
  have taking :
      Moves tape (cursor.moveTo position).next after → Moves tape cursor.next after :=
    fun moves => .of_moveTo (Nat.succ_le_succ forwards) moves
  cases reads with
  | closed moves closes =>
      exact .closed (taking moves) fun block blocks items =>
        (agrees _ _).trans (closes block blocks items)
  | finished moves finishes =>
      exact .finished (.of_moveTo forwards moves) fun items =>
        (agrees _ _).trans (finishes items)
  | separator moves same =>
      exact .separator (taking moves) fun blocks items =>
        (agrees _ _).trans (same blocks items)
  | item moves adds =>
      exact .item (taking moves) fun blocks items =>
        (agrees _ _).trans (adds blocks items)
  | failed moves fails =>
      exact .failed (.of_moveTo forwards moves) fun blocks items isBrace =>
        (agrees _ _).trans (fails blocks items isBrace)

theorem ends_round
    (closed : tape.IsClosed)
    (within : cursor.position ≤ tape.last)
    (inner : InnerEnds tape cursor)
    (brace? : Option Place) :
    Ends (tape.round brace?) cursor (ReadsRound tape cursor.beginRound brace?) := by
  have skipped := @ends_skipBlanks _ tape cursor.beginRound closed within
  unfold Tape.round
  refine ends_modify (skipped.bind ?_ ?_)
  · rintro failure after ⟨impossible, -⟩
    cases impossible
  rintro ⟨⟩ here ⟨-, skips⟩
  suffices reads : Ends _ here (ReadsRound tape here brace?) from
    reads.mono fun _ _ reads => reads.behindBlanks skips
  have within := skips.within
  have inner : InnerEnds tape here := fun brace inside further =>
    inner brace inside (Nat.lt_of_le_of_lt skips.forwards further)
  refine ends_peek tape ?_
  split
  · next isEnd =>
      cases brace? with
      | none =>
          refine ends_pure (.finished (.refl within) fun items => ?_)
          exact outcome_rest_endOfSource closed within isEnd
      | some brace =>
          refine ends_throw (.failed (.refl within) ?_)
          rintro (_ | ⟨block, blocks⟩) items isBrace
          · cases isBrace
          · cases isBrace
            exact outcome_rest_endOfSource closed within isEnd
  · next isBrace =>
      cases brace? with
      | none =>
          refine ends_throw (.failed (.refl within) ?_)
          rintro (_ | ⟨block, blocks⟩) items isOpen
          · rw [outcome_rest within]
            simp only [step, startStatement, isBrace]
            rfl
          · cases isOpen
      | some brace =>
          have further := closed.lt_last within (by simp [isBrace])
          refine ends_advance tape further (ends_pure (.closed (.refl further) ?_))
          intro block blocks items
          rw [outcome_rest within]
          simp only [step, startStatement, isBrace]
          rfl
  · next isSemicolon =>
      have further := closed.lt_last within (by simp [isSemicolon])
      refine ends_advance tape further (ends_pure (.separator (.refl further) ?_))
      intro blocks items
      rw [outcome_rest within]
      simp only [step, startStatement, isSemicolon]
      rfl
  · next text isComment =>
      have further := closed.lt_last within (by simp [isComment])
      refine ends_advance tape further (ends_pure (.item (.refl further) ?_))
      intro blocks items
      rw [outcome_rest within]
      simp only [step, startStatement, isComment]
      rfl
  · next name isAtWord =>
      exact ends_item (ends_atRule closed within isAtWord inner)
  · next notEnd notBrace notSemicolon notComment notAtWord =>
      have begins : (tape.tokenAt here.position).lexeme.beginsStatement = true := by
        have notBlank := skips.stops
        revert notEnd notBrace notSemicolon notComment notAtWord notBlank
        cases (tape.tokenAt here.position).lexeme <;> simp [Lexeme.beginsStatement]
      exact ends_item (ends_statement closed within begins inner)

/-- What the first rounds of a block read stands before what the other rounds come to. -/
theorem ReadsBlock.behindRound
    {between after : Cursor}
    {items read : List (Item Place)}
    {brace? : Option Place}
    {result : Except (Failure Fault Place) (List (Item Place))}
    (moves : Moves tape cursor between)
    (same :
      ∀ blocks,
        outcome ⟨blocks, items, none⟩ (tape.rest cursor.position) =
          outcome ⟨blocks, read, none⟩ (tape.rest between.position))
    (reads : ReadsBlock tape read between brace? result after) :
    ReadsBlock tape items cursor brace? result after := by
  cases reads with
  | closed others closes =>
      exact .closed (moves.trans others) fun block blocks =>
        (same _).trans (closes block blocks)
  | finished others finishes =>
      exact .finished (moves.beginRound.trans others) ((same _).trans finishes)
  | failed others fails =>
      exact .failed (moves.beginRound.trans others) fun blocks isBrace =>
        (same _).trans (fails blocks isBrace)

/-- At most one of its rounds is one for which a block passes no token. -/
theorem ReadsBlock.moves
    {after : Cursor}
    {items : List (Item Place)}
    {brace? : Option Place}
    {result : Except (Failure Fault Place) (List (Item Place))}
    (reads : ReadsBlock tape items cursor brace? result after) :
    Moves tape cursor.beginRound after := by
  cases reads with
  | closed moves =>
      exact moves.behindRound
  | finished moves =>
      exact moves
  | failed moves =>
      exact moves

/-- Every block ends: each round that does not close it takes a token. -/
theorem ends_block
    (closed : tape.IsClosed)
    (within : cursor.position ≤ tape.last)
    (brace? : Option Place)
    (items : List (Item Place)) :
    Ends (tape.block brace? items) cursor (ReadsBlock tape items cursor brace?) := by
  revert brace? items
  refine onwards ?_ within
  intro cursor within inductionHypothesis brace? items
  have inner : InnerEnds tape cursor := fun brace inside further insideWithin =>
    inductionHypothesis inside further insideWithin (some brace) []
  unfold Tape.block
  refine (ends_round closed within inner brace?).bind ?_ ?_
  · rintro failure after (_ | _ | _ | _ | ⟨moves, fails⟩)
    exact .failed moves fun blocks isBrace => fails blocks items isBrace
  · rintro read after reads
    cases reads with
    | closed moves closes =>
        exact ends_pure (.closed moves.of_beginRound_next.1 fun block blocks =>
          closes block blocks items)
    | finished moves finishes =>
        exact ends_pure (.finished moves (finishes items))
    | separator moves same =>
        obtain ⟨moves, further⟩ := moves.of_beginRound_next
        have others := inductionHypothesis after further moves.within brace? items
        exact others.mono fun _ _ reads =>
          reads.behindRound moves fun blocks => same blocks items
    | @item _ item _ moves adds =>
        obtain ⟨moves, further⟩ := moves.of_beginRound_next
        have others := inductionHypothesis after further moves.within brace? (item :: items)
        exact others.mono fun _ _ reads =>
          reads.behindRound moves fun blocks => adds blocks items

/--
A sheet comes to what its tokens make up, one after the other, and for every round there is
a token.
-/
theorem ends_sheet
    (closed : tape.IsClosed) :
    Ends tape.sheet .start fun result after =>
      result = Item.ofTokens tape.tokens ∧
        after.position ≤ tape.last ∧
          after.rounds ≤ tape.tokens.length := by
  refine (ends_block closed (Nat.zero_le _) none []).mono ?_
  intro result after reads
  have same : outcome ⟨[], [], none⟩ tape.tokens = result := by
    cases reads with
    | finished moves finishes =>
        exact finishes
    | failed moves fails =>
        exact fails [] rfl
  have rounds : after.rounds ≤ 1 + after.position := reads.moves.rounds
  have within := reads.moves.within
  have last := tape.last_lt
  exact ⟨same.symm, within, by omega⟩

theorem ReadsRound.progress
    {after : Cursor}
    {brace? : Option Place}
    {result : Except (Failure Fault Place) (Round Place)}
    (reads : ReadsRound tape cursor.beginRound brace? result after) :
    after.position ≤ tape.last ∧
      ((∃ failure, result = .error failure) ∨ result = .ok .ended ∨
        cursor.position < after.position) := by
  cases reads with
  | closed moves =>
      exact ⟨moves.within, .inr (.inl rfl)⟩
  | finished moves =>
      exact ⟨moves.within, .inr (.inl rfl)⟩
  | separator moves =>
      exact ⟨moves.within, .inr (.inr moves.of_beginRound_next.2)⟩
  | item moves =>
      exact ⟨moves.within, .inr (.inr moves.of_beginRound_next.2)⟩
  | failed moves =>
      exact ⟨moves.within, .inl ⟨_, rfl⟩⟩

theorem ReadsItem.progress
    {after : Cursor}
    {result : Except (Failure Fault Place) (Item Place)}
    (reads : ReadsItem tape cursor result after) :
    after.position ≤ tape.last ∧
      ∀ item, result = .ok item → cursor.position < after.position := by
  cases reads with
  | read moves =>
      exact ⟨moves.within, fun _ _ => moves.forwards⟩
  | failed moves =>
      exact ⟨moves.within, nofun⟩

/-- A round fails, ends its block or takes a token, wherever on the tape it begins. -/
theorem ends_round_progress
    (closed : tape.IsClosed)
    (within : cursor.position ≤ tape.last)
    (brace? : Option Place) :
    Ends (tape.round brace?) cursor fun result after =>
      after.position ≤ tape.last ∧
        ((∃ failure, result = .error failure) ∨ result = .ok .ended ∨
          cursor.position < after.position) := by
  have inner : InnerEnds tape cursor := fun brace _ _ within =>
    ends_block closed within (some brace) []
  exact (ends_round closed within inner brace?).mono fun _ _ reads => reads.progress

end Reading

/-- What it means that a descent ends, and on the tape, wherever on the tape it begins. -/
def Stays
    (tape : Tape Place)
    (descent : Descent Place α) : Prop :=
  ∀ cursor : Cursor, cursor.position ≤ tape.last →
    Ends descent cursor fun _ after =>
      cursor.position ≤ after.position ∧ after.position ≤ tape.last

/-- What it means that parsing always makes progress, and therefore ends. -/
structure Progresses (tape : Tape Place) : Prop where
  /-- No token behind the last one is ever reached. -/
  advance : Stays tape tape.advance
  skipBlanks : Stays tape tape.skipBlanks
  prelude : ∀ parens, Stays tape (tape.prelude parens)
  block : ∀ brace? items, Stays tape (tape.block brace? items)
  /-- A round fails, ends its block or takes a token. -/
  round :
    ∀ brace? cursor, cursor.position ≤ tape.last →
      Ends (tape.round brace?) cursor fun result after =>
        after.position ≤ tape.last ∧
          ((∃ failure, result = .error failure) ∨ result = .ok .ended ∨
            cursor.position < after.position)
  /-- A statement that is read takes a token. -/
  statement :
    ∀ cursor, cursor.position ≤ tape.last →
      (tape.tokenAt cursor.position).lexeme.beginsStatement = true →
        Ends tape.statement cursor fun result after =>
          after.position ≤ tape.last ∧
            ∀ item, result = .ok item → cursor.position < after.position
  /-- So does an at-rule. -/
  atRule :
    ∀ name cursor, cursor.position ≤ tape.last →
      (tape.tokenAt cursor.position).lexeme = .atWord name →
        Ends (tape.atRule name) cursor fun result after =>
          after.position ≤ tape.last ∧
            ∀ item, result = .ok item → cursor.position < after.position
  /-- The rounds of all blocks are not more than the tokens and the blocks that were opened. -/
  sheet :
    Ends tape.sheet .start fun result after =>
      result = Item.ofTokens tape.tokens ∧
        after.position ≤ tape.last ∧
          after.rounds ≤ tape.tokens.length + after.opened

theorem progresses_of_isClosed
    {tape : Tape Place}
    (closed : tape.IsClosed) :
    Progresses tape := by
  have inner (cursor : Cursor) : InnerEnds tape cursor := fun brace _ _ within =>
    ends_block closed within (some brace) []
  constructor
  case advance =>
    intro cursor within
    refine ⟨_, _, rfl, ?_⟩
    dsimp only
    split
    · next further =>
        exact ⟨Nat.le_succ _, further⟩
    · exact ⟨Nat.le_refl _, within⟩
  case skipBlanks =>
    intro cursor within
    refine (ends_skipBlanks closed within).mono ?_
    rintro _ after ⟨-, skips⟩
    exact ⟨skips.forwards, skips.within⟩
  case prelude =>
    intro parens cursor within
    refine (ends_prelude closed within parens).mono ?_
    rintro _ _ (⟨forwards, within, -, -⟩ | ⟨forwards, within, -⟩)
    · exact ⟨forwards, within⟩
    · exact ⟨forwards, within⟩
  case block =>
    intro brace? items cursor within
    exact (ends_block closed within brace? items).mono fun _ _ reads =>
      ⟨reads.moves.forwards, reads.moves.within⟩
  case round =>
    intro brace? cursor within
    exact ends_round_progress closed within brace?
  case statement =>
    intro cursor within begins
    exact (ends_statement closed within begins (inner cursor)).mono fun _ _ reads =>
      reads.progress
  case atRule =>
    intro name cursor within isAtWord
    exact (ends_atRule closed within isAtWord (inner cursor)).mono fun _ _ reads =>
      reads.progress
  case sheet =>
    refine (ends_sheet closed).mono ?_
    rintro _ after ⟨same, within, paid⟩
    exact ⟨same, within, Nat.le_add_right_of_le paid⟩

/-- The tokens of a rule with a separator, an at-rule and a declaration that nothing ends. -/
def nestedTape : Tape Nat where
  tokens :=
    [ ⟨.word "a".toList, 0⟩, ⟨.leftBrace, 1⟩, ⟨.semicolon, 2⟩, ⟨.atWord "m".toList, 3⟩,
      ⟨.leftBrace, 4⟩, ⟨.rightBrace, 5⟩, ⟨.whitespace " ".toList, 6⟩, ⟨.word "b".toList, 7⟩,
      ⟨.colon, 8⟩, ⟨.word "c".toList, 9⟩, ⟨.rightBrace, 10⟩, ⟨.endOfSource, 11⟩ ]
  inhabited := by decide

theorem progresses_of_isClosed_nestedTape :
    nestedTape.IsClosed ∧
      Progresses nestedTape ∧
        Item.ofTokens nestedTape.tokens =
          .ok
            [ .rule "a".toList
                [ .atBlock "m".toList [] [] 3,
                  .declaration ⟨"b".toList, "c".toList, 7⟩ ]
                0 ] := by
  have closed : nestedTape.IsClosed := ⟨by decide, by decide⟩
  exact ⟨closed, progresses_of_isClosed closed, rfl⟩

/--
The descent over the tokens of a source ends with what the source comes to, after no more
rounds than there are tokens, and each round fails, ends its block or takes a token.
-/
theorem ends_of_scan
    {source : Text}
    {tokens : List (Token Span)}
    (scanned : Token.scan source = .ok tokens) :
    ∃ tape : Tape Span,
      tape.tokens = tokens ∧
        (∀ brace? cursor, cursor.position ≤ tape.last →
          Ends (tape.round brace?) cursor fun result after =>
            after.position ≤ tape.last ∧
              ((∃ failure, result = .error failure) ∨ result = .ok .ended ∨
                cursor.position < after.position)) ∧
          Ends tape.sheet .start fun result after =>
            result.mapError (Failure.relocate Span.start) = Item.ofSource source ∧
              after.position ≤ tape.last ∧ after.rounds ≤ tokens.length := by
  obtain ⟨inhabited, closed⟩ := Tape.exists_isClosed_of_scan scanned
  refine ⟨⟨tokens, inhabited⟩, rfl, ?_, ?_⟩
  · intro brace? cursor within
    exact ends_round_progress closed within brace?
  · refine (ends_sheet closed).mono ?_
    rintro _ after ⟨rfl, within, rounds⟩
    have comesTo :
        Item.ofSource source =
          (Item.ofTokens tokens).mapError (Failure.relocate Span.start) := by
      simp only [Item.ofSource, scanned]
    exact ⟨comesTo.symm, within, rounds⟩

end Descent

end PageSheet
