import PageSheet.Proofs.Brackets
import PageSheet.Proofs.Spaces
import PageSheet.Proofs.Spelling
namespace PageSheet

/-!
# Blanks at the ends of a statement

The texts of a statement are trimmed, so blanks behind its last lexeme, behind its colon
and in front of its colon are no part of them.  A statement that is padded with blanks is
the same item and the same header, and between statements the parser passes blanks over.
So what a terminator or the colon of a declaration comes to is the same with blanks on
both sides of it and with none.
-/

namespace Text

theorem trim_blanks_append
    {blanks : Text}
    (blank : ∀ c ∈ blanks, Lexeme.isBlank c = true)
    (text : Text) :
    trim (blanks ++ text) = trim text := by
  induction blanks with
  | nil =>
      rfl
  | cons c rest inductionHypothesis =>
      obtain ⟨first, others⟩ := List.forall_mem_cons.mp blank
      rw [List.cons_append, trim_cons (Lexeme.isWhiteSpace_of_isBlank first)]
      exact inductionHypothesis others

theorem trim_append_blanks
    {blanks : Text}
    (blank : ∀ c ∈ blanks, Lexeme.isBlank c = true)
    (text : Text) :
    trim (text ++ blanks) = trim text := by
  induction blanks generalizing text with
  | nil =>
      rw [List.append_nil]
  | cons c rest inductionHypothesis =>
      obtain ⟨first, others⟩ := List.forall_mem_cons.mp blank
      rw [List.append_cons, inductionHypothesis others,
        trim_concat (Lexeme.isWhiteSpace_of_isBlank first)]

end Text

namespace Prelude

open Lexeme

section Spaces

variable {blanks : Text} (blank : ∀ c ∈ blanks, isBlank c = true)
include blank

theorem text_spaces_append
    (lexemes : List Lexeme) :
    text (spaces blanks ++ lexemes) = text lexemes := by
  rw [text, spellings_append, spellings_spaces, Text.trim_blanks_append blank, text]

theorem text_append_spaces
    (lexemes : List Lexeme) :
    text (lexemes ++ spaces blanks) = text lexemes := by
  rw [text, spellings_append, spellings_spaces, Text.trim_append_blanks blank, text]

/-- Blanks at the end of a prelude are no part of what it declares. -/
theorem declaration_append_spaces
    (lexemes : List Lexeme)
    (place : Place) :
    declaration (lexemes ++ spaces blanks) place = declaration lexemes place := by
  cases blanks with
  | nil =>
      rw [spaces, List.append_nil]
  | cons c rest =>
      have notColon : Lexeme.whitespace (c :: rest) ≠ .colon := by
        simp
      have trimmed := fun before => text_append_spaces blank before
      rw [spaces] at trimmed ⊢
      unfold declaration
      rw [splitColon?_concat notColon, trimmed]
      cases splitColon? 0 lexemes with
      | none =>
          rfl
      | some parts =>
          simp only [Option.map_some, trimmed]

end Spaces

/-- Blanks open and close no parentheses. -/
theorem depthBehind_spaces
    (depth : Nat)
    (blanks : Text) :
    depthBehind depth (spaces blanks) = depth := by
  cases blanks <;> rfl

theorem shelters_spaces
    {kind : Lexeme → Bool}
    (otherKind : ∀ text, kind (.whitespace text) = false)
    (depth : Nat)
    (blanks : Text) :
    shelters kind depth (spaces blanks) = true := by
  cases blanks with
  | nil =>
      rfl
  | cons c rest =>
      simp [spaces, shelters, otherKind]

/--
Whether a statement that goes on with some lexemes, inside a number of open parentheses,
ends without a block: at a semicolon, at a right brace or where the source ends.
-/
def endsPlainly : Nat → List Lexeme → Bool
  | depth, [] => depth == 0
  | 0, .leftBrace :: _ => false
  | 0, .rightBrace :: _ => true
  | 0, .semicolon :: _ => true
  | depth, lexeme :: rest => endsPlainly (depthAfter depth lexeme) rest

/-- A statement that ends without a block goes up to one of three ends. -/
theorem endsPlainly_iff
    {depth : Nat}
    {back : List Lexeme} :
    endsPlainly depth back = true ↔
      ∃ leading rest,
        back = leading ++ rest ∧
          shelters isTerminator depth leading = true ∧
            depthBehind depth leading = 0 ∧
              ∀ first ∈ rest.head?, first = .semicolon ∨ first = .rightBrace := by
  fun_induction endsPlainly depth back with
  | case1 depth =>
      constructor
      · intro outside
        exact ⟨[], [], rfl, rfl, beq_iff_eq.mp outside, by simp⟩
      · rintro ⟨leading, rest, nothing, -, outside, -⟩
        obtain ⟨rfl, -⟩ := List.append_eq_nil_iff.mp nothing.symm
        exact beq_iff_eq.mpr outside
  | case2 rest =>
      refine iff_of_false Bool.false_ne_true ?_
      rintro ⟨_ | ⟨first, others⟩, rest, whole, sheltered, -, ends⟩
      · obtain rfl := whole
        rcases ends _ rfl with isOther | isOther <;> cases isOther
      · cases whole
        cases sheltered
  | case3 rest =>
      exact iff_of_true rfl ⟨[], _, rfl, rfl, rfl, by simp⟩
  | case4 rest =>
      exact iff_of_true rfl ⟨[], _, rfl, rfl, rfl, by simp⟩
  | case5 depth lexeme rest notOpening notClosing notSeparating inductionHypothesis =>
      have hidden : (depth != 0 || !isTerminator lexeme) = true := by
        by_cases outside : depth = 0
        · cases lexeme with
          | leftBrace =>
              exact (notOpening outside rfl).elim
          | rightBrace =>
              exact (notClosing outside rfl).elim
          | semicolon =>
              exact (notSeparating outside rfl).elim
          | _ =>
              simp [isTerminator]
        · simp [outside]
      rw [inductionHypothesis]
      constructor
      · rintro ⟨leading, behind, rfl, sheltered, outside, ends⟩
        refine ⟨lexeme :: leading, behind, rfl, ?_, outside, ends⟩
        rw [shelters, hidden, sheltered]
        rfl
      · rintro ⟨_ | ⟨first, others⟩, behind, whole, sheltered, outside, ends⟩
        · obtain rfl := whole
          have outside : depth = 0 :=
            outside
          rcases ends _ rfl with rfl | rfl
          · exact (notSeparating outside rfl).elim
          · exact (notClosing outside rfl).elim
        · cases whole
          rw [shelters, hidden, Bool.true_and] at sheltered
          exact ⟨others, behind, rfl, sheltered, outside, ends⟩

/-- Blanks in front of the rest of a statement do not decide how it ends. -/
theorem endsPlainly_spaces
    (depth : Nat)
    (blanks : Text)
    (back : List Lexeme) :
    endsPlainly depth (spaces blanks ++ back) = endsPlainly depth back := by
  cases blanks with
  | nil =>
      rfl
  | cons c rest =>
      cases depth <;> rfl

/-- The end of the source does not decide how the statement before it ends. -/
theorem endsPlainly_endOfSource
    (depth : Nat)
    (back : List Lexeme) :
    endsPlainly depth (back ++ [.endOfSource]) = endsPlainly depth back := by
  fun_induction endsPlainly depth back with
  | case1 depth =>
      cases depth <;> rfl
  | case2 | case3 | case4 =>
      rfl
  | case5 depth lexeme rest notOpening notClosing notSeparating inductionHypothesis =>
      rw [List.cons_append, endsPlainly.eq_5 _ _ _ notOpening notClosing notSeparating,
        inductionHypothesis]

end Prelude

namespace Pending

/-- A statement with blanks behind its last lexeme. -/
def padded
    (blanks : Text)
    (pending : Pending Unit) :
    Pending Unit where
  atName :=
    pending.atName
  place :=
    pending.place
  lexemes :=
    Lexeme.spaces blanks ++ pending.lexemes
  parens :=
    pending.parens

theorem prelude_padded
    (blanks : Text)
    (pending : Pending Unit) :
    (pending.padded blanks).prelude = pending.prelude ++ Lexeme.spaces blanks := by
  cases blanks with
  | nil =>
      rw [Lexeme.spaces, List.append_nil]
      rfl
  | cons c rest =>
      exact List.reverse_cons

section Padded

variable {blanks : Text} (blank : ∀ c ∈ blanks, Lexeme.isBlank c = true)
include blank

/-- A padded statement is the same item. -/
theorem item_padded
    (pending : Pending Unit) :
    (pending.padded blanks).item = pending.item := by
  unfold item
  rw [prelude_padded, Prelude.text_append_spaces blank,
    Prelude.declaration_append_spaces blank]
  rfl

/-- A padded statement is the same header. -/
theorem header_padded
    (pending : Pending Unit)
    (brace : Unit) :
    (pending.padded blanks).header brace = pending.header brace := by
  unfold header
  rw [prelude_padded, Prelude.text_append_spaces blank]
  rfl

end Padded

end Pending

namespace Progress

/-- What is known of a sheet when blanks follow. -/
def padded
    (blanks : Text)
    (progress : Progress Unit) :
    Progress Unit where
  blocks :=
    progress.blocks
  items :=
    progress.items
  pending :=
    progress.pending.map (Pending.padded blanks)

/-- Between statements there is nothing to pad. -/
theorem padded_of_idle
    {progress : Progress Unit}
    (idle : progress.pending = none)
    (blanks : Text) :
    progress.padded blanks = progress := by
  obtain ⟨blocks, items, pending⟩ := progress
  cases idle
  rfl

/-- Blanks pad the statement that is being read, and are passed over between statements. -/
theorem steps_spaces
    (progress : Progress Unit)
    (blanks : Text) :
    progress.steps ((Lexeme.spaces blanks).map Token.bare) = .ok (progress.padded blanks) := by
  obtain ⟨blocks, items, pending⟩ := progress
  cases blanks with
  | nil =>
      cases pending <;> rfl
  | cons c rest =>
      cases pending <;> rfl

/-- What ends a statement without a block asks for nothing but the item that it is. -/
theorem step_wait_congr
    (progress : Progress Unit)
    {pending pending' : Pending Unit}
    (closed : pending.parens = [])
    (closed' : pending'.parens = [])
    (sameItem : pending'.item = pending.item)
    {lexeme : Lexeme}
    (ends : lexeme = .semicolon ∨ lexeme = .rightBrace) :
    (progress.wait pending').step (.bare lexeme) =
      (progress.wait pending).step (.bare lexeme) := by
  rcases ends with rfl | rfl
  · rw [step_semicolon progress closed, step_semicolon progress closed', sameItem]
  · have settles : (progress.wait pending').settle = (progress.wait pending).settle := by
      rw [settle_wait progress closed, settle_wait progress closed', sameItem]
    rw [step_rightBrace (by rintro _ ⟨⟩; exact closed'),
      step_rightBrace (by rintro _ ⟨⟩; exact closed), settles]

/-- A terminator outside parentheses does not see the blanks in front of it. -/
theorem step_padded
    {progress : Progress Unit}
    (closed : ∀ pending ∈ progress.pending, pending.parens = [])
    {lexeme : Lexeme}
    (terminates : Prelude.isTerminator lexeme = true)
    {blanks : Text}
    (blank : ∀ c ∈ blanks, Lexeme.isBlank c = true) :
    (progress.padded blanks).step (.bare lexeme) = progress.step (.bare lexeme) := by
  obtain ⟨blocks, items, pending⟩ := progress
  cases pending with
  | none =>
      rfl
  | some pending =>
      have outside : pending.parens = [] :=
        closed pending rfl
      have plain :=
        @step_wait_congr ⟨blocks, items, none⟩ pending (pending.padded blanks) outside
          outside (pending.item_padded blank)
      cases lexeme with
      | leftBrace =>
          have opens := step_leftBrace ⟨blocks, items, none⟩ outside
          have opensPadded :=
            @step_leftBrace ⟨blocks, items, none⟩ (pending.padded blanks) outside
          rw [pending.header_padded blank, ← opens] at opensPadded
          exact opensPadded
      | semicolon =>
          exact plain (.inl rfl)
      | rightBrace =>
          exact plain (.inr rfl)
      | _ =>
          cases terminates

theorem idle_of_closeBlock
    {progress next : Progress Place}
    {brace : Place}
    (closed : progress.closeBlock brace = .ok next) :
    next.pending = none := by
  obtain ⟨blocks, items, pending⟩ := progress
  cases blocks with
  | nil =>
      cases closed
  | cons block others =>
      cases closed
      rfl

/-- Behind a terminator outside parentheses no statement is being read. -/
theorem idle_of_step
    {progress next : Progress Unit}
    (closed : ∀ pending ∈ progress.pending, pending.parens = [])
    {lexeme : Lexeme}
    (terminates : Prelude.isTerminator lexeme = true)
    (taken : progress.step (.bare lexeme) = .ok next) :
    next.pending = none := by
  cases lexeme with
  | rightBrace =>
      rw [step_rightBrace closed] at taken
      obtain ⟨settled, -, closes⟩ := exists_of_bind_eq_ok taken
      exact idle_of_closeBlock closes
  | leftBrace =>
      obtain ⟨blocks, items, pending⟩ := progress
      cases pending with
      | none =>
          cases taken
      | some pending =>
          have opens := step_leftBrace ⟨blocks, items, none⟩ (closed pending rfl)
          obtain ⟨header, -, rfl⟩ := exists_of_map_eq_ok (opens.symm.trans taken)
          rfl
  | semicolon =>
      obtain ⟨blocks, items, pending⟩ := progress
      cases pending with
      | none =>
          cases taken
          rfl
      | some pending =>
          have ends := step_semicolon ⟨blocks, items, none⟩ (closed pending rfl)
          obtain ⟨item, -, rfl⟩ := exists_of_map_eq_ok (ends.symm.trans taken)
          rfl
  | _ =>
      cases terminates

/-- Blanks on both sides of a terminator outside parentheses are passed over. -/
theorem steps_terminator
    {progress : Progress Unit}
    (closed : ∀ pending ∈ progress.pending, pending.parens = [])
    {lexeme : Lexeme}
    (terminates : Prelude.isTerminator lexeme = true)
    {blanks : Text}
    (blank : ∀ c ∈ blanks, Lexeme.isBlank c = true)
    (others : Text)
    (back : List Lexeme) :
    progress.steps
        ((Lexeme.spaces blanks ++ lexeme :: (Lexeme.spaces others ++ back)).map Token.bare) =
      progress.steps ((lexeme :: back).map Token.bare) := by
  rw [List.map_append, steps_append, steps_spaces]
  show (progress.padded blanks).steps _ = _
  rw [List.map_cons, List.map_cons, steps_cons, steps_cons,
    step_padded closed terminates blank]
  cases taken : progress.step (.bare lexeme) with
  | error failure =>
      rfl
  | ok next =>
      have idle := idle_of_step closed terminates taken
      show next.steps _ = next.steps _
      rw [List.map_append, steps_append, steps_spaces, padded_of_idle idle]
      rfl

/--
What it means that in the statement that is being read, if there is one, as many
parentheses are open as its lexemes say.
-/
def IsCounted (progress : Progress Unit) : Prop :=
  ∀ pending ∈ progress.pending, ∃ atName prelude, pending = .behind atName prelude

theorem isCounted_of_idle
    {progress : Progress Unit}
    (idle : progress.pending = none) :
    progress.IsCounted := by
  intro pending isPending
  rw [idle] at isPending
  cases isPending

theorem isCounted_continueStatement
    {progress next : Progress Unit}
    {atName : Option Text}
    {prelude : List Lexeme}
    {token : Token Unit}
    (taken : progress.continueStatement (.behind atName prelude) token = .ok next) :
    next.IsCounted := by
  unfold continueStatement at taken
  split at taken
  · obtain ⟨header, -, rfl⟩ := exists_of_map_eq_ok taken
    exact isCounted_of_idle rfl
  · obtain ⟨item, -, rfl⟩ := exists_of_map_eq_ok taken
    exact isCounted_of_idle rfl
  · obtain ⟨ended, -, closes⟩ := exists_of_bind_eq_ok taken
    exact isCounted_of_idle (idle_of_closeBlock closes)
  · cases taken
    rintro pending ⟨⟩
    exact ⟨atName, _, Pending.extend_behind atName prelude token.lexeme⟩

/-- The parser counts parentheses as it takes one token. -/
theorem isCounted_step
    {progress next : Progress Unit}
    (counted : progress.IsCounted)
    {token : Token Unit}
    (taken : progress.step token = .ok next) :
    next.IsCounted := by
  obtain ⟨blocks, items, pending⟩ := progress
  cases pending with
  | some pending =>
      obtain ⟨atName, prelude, rfl⟩ := counted pending rfl
      exact isCounted_continueStatement taken
  | none =>
      obtain ⟨lexeme, place⟩ := token
      have begins :=
        @isCounted_continueStatement ⟨blocks, items, none⟩ next none [] ⟨lexeme, place⟩
      cases lexeme with
      | whitespace | semicolon | endOfSource | comment =>
          cases taken
          exact isCounted_of_idle rfl
      | rightBrace =>
          exact isCounted_of_idle (idle_of_closeBlock taken)
      | atWord name =>
          cases taken
          rintro pending ⟨⟩
          exact ⟨some name, [], rfl⟩
      | _ =>
          exact begins taken

theorem isCounted_steps
    {progress next : Progress Unit}
    (counted : progress.IsCounted)
    {tokens : List (Token Unit)}
    (taken : progress.steps tokens = .ok next) :
    next.IsCounted := by
  induction tokens generalizing progress with
  | nil =>
      cases taken
      exact counted
  | cons token rest inductionHypothesis =>
      rw [steps_cons] at taken
      obtain ⟨between, first, others⟩ := exists_of_bind_eq_ok taken
      exact inductionHypothesis (isCounted_step counted first) others

/-- Whether what is being read, if anything, is the property of a declaration so far. -/
def readsProperty (progress : Progress Place) : Bool :=
  progress.pending.all fun pending =>
    pending.atName.isNone && pending.parens.isEmpty &&
      Prelude.shelters Prelude.isColon 0 pending.prelude

theorem readsProperty_padded
    (progress : Progress Unit)
    (blanks : Text) :
    (progress.padded blanks).readsProperty = progress.readsProperty := by
  obtain ⟨blocks, items, pending⟩ := progress
  cases pending with
  | none =>
      rfl
  | some pending =>
      have sheltered :
          Prelude.shelters Prelude.isColon 0 (pending.padded blanks).prelude =
            Prelude.shelters Prelude.isColon 0 pending.prelude := by
        rw [Pending.prelude_padded, Prelude.shelters_append,
          Prelude.shelters_spaces (fun _ => rfl), Bool.and_true]
      simp only [readsProperty, padded, Option.map_some, Option.all_some, sheltered]
      rfl

end Progress

/-- A statement with a colon outside parentheses is divided at the first one. -/
theorem Pending.item_behind_colon
    {before : List Lexeme}
    (outside : Prelude.depthBehind 0 before = 0)
    (first : Prelude.shelters Prelude.isColon 0 before = true)
    (after : List Lexeme) :
    (behind none (before ++ .colon :: after)).item =
      if Prelude.text before = [] then
        .error ⟨.missingProperty, ()⟩
      else
        .ok (.declaration ⟨Prelude.text before, Prelude.text after, ()⟩) := by
  have split :
      Prelude.splitColon? 0 (before ++ .colon :: after) = some (before, after) :=
    Prelude.splitColon?_eq_some_iff.mpr ⟨rfl, outside, first⟩
  have whole : (behind none (before ++ .colon :: after)).prelude = before ++ .colon :: after :=
    List.reverse_reverse _
  unfold item
  rw [whole]
  simp only [behind, Prelude.declaration, split]
  split <;> rfl

theorem Pending.padded_behind
    (atName : Option Text)
    (prelude : List Lexeme)
    (blanks : Text) :
    (behind atName prelude).padded blanks = behind atName (prelude ++ Lexeme.spaces blanks) := by
  have sameDepth :
      Prelude.depthBehind 0 (prelude ++ Lexeme.spaces blanks) =
        Prelude.depthBehind 0 prelude := by
    rw [Prelude.depthBehind_append, Prelude.depthBehind_spaces]
  have reversed : (Lexeme.spaces blanks).reverse = Lexeme.spaces blanks := by
    cases blanks <;> rfl
  simp only [padded, behind, sameDepth, List.reverse_append, reversed]

namespace Progress

section Colon

variable {before back : List Lexeme} {blanks others : Text}

/-- The lexemes behind the colon of a declaration are read up to its end. -/
theorem steps_behind_colon
    (progress : Progress Unit)
    (outside : Prelude.depthBehind 0 before = 0)
    {leading : List Lexeme}
    (sheltered : Prelude.shelters Prelude.isTerminator 0 leading = true)
    (others : Text)
    (rest : List Lexeme) :
    (progress.wait (.behind none before)).steps
        ((.colon :: (Lexeme.spaces others ++ (leading ++ rest))).map Token.bare) =
      (progress.wait
          (.behind none (before ++ .colon :: (Lexeme.spaces others ++ leading)))).steps
        (rest.map Token.bare) := by
  have sheltersAll :
      Prelude.shelters Prelude.isTerminator (Prelude.depthBehind 0 before)
          (.colon :: (Lexeme.spaces others ++ leading)) =
        true := by
    have spaces :
        Prelude.shelters Prelude.isTerminator 0 (Lexeme.spaces others ++ leading) = true := by
      rw [Prelude.shelters_append, Prelude.shelters_spaces (fun _ => rfl),
        Prelude.depthBehind_spaces, sheltered]
      rfl
    rw [outside]
    exact spaces
  have taken := steps_behind progress none sheltersAll
  rw [← List.append_assoc, ← List.cons_append, List.map_append, steps_append, taken]
  rfl

/-- Blanks on both sides of the colon of a declaration are no part of it. -/
theorem finish_behind_colon
    (progress : Progress Unit)
    (outside : Prelude.depthBehind 0 before = 0)
    (first : Prelude.shelters Prelude.isColon 0 before = true)
    (plain : Prelude.endsPlainly 0 back = true)
    (blank : ∀ c ∈ blanks, Lexeme.isBlank c = true)
    (blank' : ∀ c ∈ others, Lexeme.isBlank c = true) :
    ((progress.wait (.behind none (before ++ Lexeme.spaces blanks))).steps
          ((.colon :: (Lexeme.spaces others ++ back)).map Token.bare)).bind finish =
      ((progress.wait (.behind none before)).steps
          ((.colon :: back).map Token.bare)).bind finish := by
  obtain ⟨leading, rest, rfl, sheltered, leaves, ends⟩ :=
    Prelude.endsPlainly_iff.mp plain
  have outside' : Prelude.depthBehind 0 (before ++ Lexeme.spaces blanks) = 0 := by
    rw [Prelude.depthBehind_append, Prelude.depthBehind_spaces, outside]
  have first' :
      Prelude.shelters Prelude.isColon 0 (before ++ Lexeme.spaces blanks) = true := by
    rw [Prelude.shelters_append, Prelude.shelters_spaces (fun _ => rfl), first]
    rfl
  have closed :
      ∀ {front others}, Prelude.depthBehind 0 front = 0 →
        (Pending.behind none
            (front ++ .colon :: (Lexeme.spaces others ++ leading))).parens = [] := by
    intro front others isOutside
    have depth :
        Prelude.depthBehind 0 (front ++ .colon :: (Lexeme.spaces others ++ leading)) = 0 := by
      rw [Prelude.depthBehind_append, isOutside]
      show Prelude.depthBehind 0 (Lexeme.spaces others ++ leading) = 0
      rw [Prelude.depthBehind_append, Prelude.depthBehind_spaces, leaves]
    simp [Pending.behind, depth]
  -- Both declarations end in one lexeme list, so all that may differ is the item.
  have sameItem :
      (Pending.behind none (before ++ Lexeme.spaces blanks ++
          .colon :: (Lexeme.spaces others ++ leading))).item =
        (Pending.behind none (before ++ .colon :: (Lexeme.spaces [] ++ leading))).item := by
    rw [Pending.item_behind_colon outside' first', Pending.item_behind_colon outside first,
      Prelude.text_append_spaces blank, Prelude.text_spaces_append blank']
    rfl
  have reached := steps_behind_colon progress outside sheltered [] rest
  have reached' := steps_behind_colon progress outside' sheltered others rest
  rw [reached']
  refine Eq.trans ?_ (congrArg (Except.bind · finish) reached).symm
  cases rest with
  | nil =>
      show finish _ = finish _
      unfold finish
      rw [settle_wait progress (closed outside), settle_wait progress (closed outside'),
        sameItem]
  | cons last more =>
      rw [List.map_cons, steps_cons, steps_cons,
        step_wait_congr progress (closed outside) (closed outside') sameItem (ends last rfl)]

/-- Where a declaration is divided, it comes to the same with blanks around its colon. -/
theorem finish_colon
    {progress : Progress Unit}
    (counted : progress.IsCounted)
    (reads : progress.readsProperty = true)
    (plain : Prelude.endsPlainly 0 back = true)
    (blank : ∀ c ∈ blanks, Lexeme.isBlank c = true)
    (blank' : ∀ c ∈ others, Lexeme.isBlank c = true) :
    (progress.steps
          ((Lexeme.spaces blanks ++ .colon :: (Lexeme.spaces others ++ back)).map
            Token.bare)).bind finish =
      (progress.steps ((.colon :: back).map Token.bare)).bind finish := by
  rw [List.map_append, steps_append, steps_spaces]
  show ((progress.padded blanks).steps _).bind finish = _
  obtain ⟨blocks, items, pending⟩ := progress
  cases pending with
  | none =>
      -- The colon is the first lexeme of the declaration, and nothing is in front of it.
      exact @finish_behind_colon [] back [] others ⟨blocks, items, none⟩ rfl rfl plain
        (List.forall_mem_nil _) blank'
  | some pending =>
      obtain ⟨atName, prelude, rfl⟩ := counted pending rfl
      simp only [readsProperty, Option.all_some, Bool.and_eq_true, Option.isNone_iff_eq_none,
        List.isEmpty_iff] at reads
      obtain ⟨⟨isPlain, closed⟩, first⟩ := reads
      have isPlain : atName = none :=
        isPlain
      subst isPlain
      have outside : Prelude.depthBehind 0 prelude = 0 :=
        (List.replicate_eq_nil_iff ()).mp closed
      have whole : (Pending.behind none prelude).prelude = prelude :=
        List.reverse_reverse prelude
      rw [whole] at first
      have padded :
          padded blanks ⟨blocks, items, some (.behind none prelude)⟩ =
            wait ⟨blocks, items, none⟩
              (.behind none (prelude ++ Lexeme.spaces blanks)) := by
        rw [← Pending.padded_behind]
        rfl
      rw [padded]
      exact finish_behind_colon ⟨blocks, items, none⟩ outside first plain blank blank'

end Colon

end Progress

end PageSheet
