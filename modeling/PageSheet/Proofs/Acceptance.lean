import PageSheet.Proofs.Grammar
import PageSheet.Proofs.Places
import PageSheet.Proofs.Reading
import PageSheet.Proofs.Results
namespace PageSheet

/-!
# Parsing accepts the grammar

The parser keeps a statement with the parentheses that are open in it, and takes
one token at a time.  Along a derivation it ends up with the derived items; and
what it still takes from any point on is described by `Closes`: the open blocks
are completed one by one, each by a derivation of its own, up to the outermost
list of items.
-/

/-- A lexeme at no place in particular. -/
def Token.bare (lexeme : Lexeme) : Token Unit :=
  ⟨lexeme, ()⟩

/-- How lexemes fall into the name of an at-rule, if they start with one, and a prelude. -/
inductive Introduces : List Lexeme → Option Text → List Lexeme → Prop where
  | atWord
      {name : Text}
      {prelude : List Lexeme} :
      Introduces (.atWord name :: prelude) (some name) prelude
  | plain
      {first : Lexeme}
      {rest : List Lexeme} :
      first.opensStatement = true →
      Introduces (first :: rest) none (first :: rest)

namespace Prelude

theorem text_endOfSource
    (lexemes : List Lexeme) :
    text (lexemes ++ [.endOfSource]) = text lexemes := by
  simp [text, Lexeme.spellings, Lexeme.spelling]

theorem declaration_endOfSource
    (lexemes : List Lexeme)
    (place : Place) :
    declaration (lexemes ++ [.endOfSource]) place = declaration lexemes place := by
  have notColon : Lexeme.endOfSource ≠ .colon := by
    decide
  unfold declaration
  rw [splitColon?_concat notColon, text_endOfSource]
  cases splitColon? 0 lexemes with
  | none =>
      rfl
  | some parts =>
      simp only [Option.map_some, text_endOfSource]

end Prelude

namespace Pending

theorem item_endOfSource
    (pending : Pending Place)
    (place : Place) :
    (pending.extend ⟨.endOfSource, place⟩).item = pending.item := by
  have whole :
      (pending.extend ⟨.endOfSource, place⟩).prelude =
        pending.prelude ++ [.endOfSource] :=
    List.reverse_cons
  unfold item
  rw [whole, Prelude.text_endOfSource, Prelude.declaration_endOfSource]
  rfl

/-- The statement that is being read behind some lexemes of its prelude. -/
def behind
    (atName : Option Text)
    (prelude : List Lexeme) :
    Pending Unit where
  atName :=
    atName
  place :=
    ()
  lexemes :=
    prelude.reverse
  parens :=
    List.replicate (Prelude.depthBehind 0 prelude) ()

/-- The open parentheses of a statement are as many as the depth says. -/
theorem extend_behind
    (atName : Option Text)
    (prelude : List Lexeme)
    (lexeme : Lexeme) :
    (behind atName prelude).extend (.bare lexeme) =
      behind atName (prelude ++ [lexeme]) := by
  have parens :
      parensAfter (List.replicate (Prelude.depthBehind 0 prelude) ()) ()
          lexeme =
        List.replicate
          (Prelude.depthAfter (Prelude.depthBehind 0 prelude) lexeme) () := by
    cases lexeme with
    | rightParen =>
        simp [parensAfter, Prelude.depthAfter]
    | _ =>
        rfl
  simp only [extend, behind, Token.bare, parens, List.reverse_append,
    List.reverse_singleton, List.singleton_append, Prelude.depthBehind_append]
  rfl

/-- A statement that is read to its end is the item that the grammar states. -/
theorem item_behind_eq_ok_iff
    {lexemes prelude : List Lexeme}
    {atName : Option Text}
    {item : Item Unit}
    (introduces : Introduces lexemes atName prelude)
    (complete : Prelude.isPrelude prelude = true) :
    (behind atName prelude).item = .ok item ↔ States lexemes item := by
  have whole : (behind atName prelude).prelude = prelude :=
    List.reverse_reverse prelude
  unfold Pending.item
  rw [whole]
  cases introduces with
  | atWord =>
      constructor
      · intro stated
        cases stated
        exact .atStatement complete
      · intro stated
        cases stated with
        | atStatement =>
            rfl
        | declaration opens =>
            cases opens
  | @plain first rest opens =>
      simp only [behind, Prelude.declaration]
      constructor
      · intro stated
        obtain ⟨given, declared, rfl⟩ := exists_of_map_eq_ok stated
        cases split : Prelude.splitColon? 0 (first :: rest) with
        | none =>
            rw [split] at declared
            cases declared
        | some parts =>
            obtain ⟨before, after⟩ := parts
            simp only [split] at declared
            by_cases empty : Prelude.text before = []
            · rw [if_pos empty] at declared
              cases declared
            · rw [if_neg empty] at declared
              cases declared
              obtain ⟨shape, outside, sheltered⟩ :=
                Prelude.splitColon?_eq_some_iff.mp split
              exact .declaration opens complete ⟨shape, outside, sheltered⟩ empty
      · intro stated
        cases stated with
        | atStatement =>
            cases opens
        | declaration _ _ divides nonempty =>
            have split := Prelude.splitColon?_eq_some_iff.mpr
              ⟨divides.whole, divides.outside, divides.first⟩
            simp [split, nonempty, Except.map]

/-- A statement that is read up to a block is the header that the grammar allows. -/
theorem header_behind_eq_ok_iff
    {lexemes prelude : List Lexeme}
    {atName : Option Text}
    {header : Header Unit}
    (introduces : Introduces lexemes atName prelude)
    (complete : Prelude.isPrelude prelude = true) :
    (behind atName prelude).header () = .ok header ↔ Heads lexemes header := by
  have whole : (behind atName prelude).prelude = prelude :=
    List.reverse_reverse prelude
  unfold Pending.header
  rw [whole]
  cases introduces with
  | atWord =>
      constructor
      · intro headed
        cases headed
        exact .atBlock complete
      · intro headed
        cases headed with
        | atBlock =>
            rfl
        | rule opens =>
            cases opens
  | @plain first rest opens =>
      simp only [behind]
      by_cases empty : Prelude.text (first :: rest) = []
      · rw [if_pos empty]
        constructor
        · intro headed
          cases headed
        · intro headed
          cases headed with
          | atBlock =>
              cases opens
          | rule _ _ nonempty =>
              exact absurd empty nonempty
      · rw [if_neg empty]
        constructor
        · intro headed
          cases headed
          exact .rule opens complete empty
        · intro headed
          cases headed with
          | atBlock =>
              cases opens
          | rule =>
              rfl

end Pending

namespace Progress

/-- A statement takes every token but a terminator outside its parentheses. -/
theorem continueStatement_of_inside
    (progress : Progress Place)
    {pending : Pending Place}
    {token : Token Place}
    (inside : Prelude.isTerminator token.lexeme = true → pending.parens ≠ []) :
    progress.continueStatement pending token =
      .ok (progress.wait (pending.extend token)) := by
  unfold continueStatement
  split
  · next isBrace closed =>
      exact absurd closed (inside (by rw [isBrace]; rfl))
  · next isSemicolon closed =>
      exact absurd closed (inside (by rw [isSemicolon]; rfl))
  · next isBrace closed =>
      exact absurd closed (inside (by rw [isBrace]; rfl))
  · rfl

theorem continueStatement_behind
    (progress : Progress Unit)
    (atName : Option Text)
    (prelude : List Lexeme)
    {lexeme : Lexeme}
    (sheltered :
      (Prelude.depthBehind 0 prelude != 0 || !Prelude.isTerminator lexeme) = true) :
    progress.continueStatement (.behind atName prelude) (.bare lexeme) =
      .ok (progress.wait (.behind atName (prelude ++ [lexeme]))) := by
  rw [← Pending.extend_behind]
  refine progress.continueStatement_of_inside fun terminates closed => ?_
  have depth : Prelude.depthBehind 0 prelude = 0 :=
    (List.replicate_eq_nil_iff ()).mp closed
  have terminates : Prelude.isTerminator lexeme = true :=
    terminates
  simp [depth, terminates] at sheltered

/-- A statement takes lexemes for as long as they shelter their terminators. -/
theorem steps_behind
    (progress : Progress Unit)
    (atName : Option Text)
    {prelude more : List Lexeme}
    (sheltered :
      Prelude.shelters Prelude.isTerminator (Prelude.depthBehind 0 prelude) more =
        true) :
    (progress.wait (.behind atName prelude)).steps (more.map Token.bare) =
      .ok (progress.wait (.behind atName (prelude ++ more))) := by
  induction more generalizing prelude with
  | nil =>
      rw [List.append_nil]
      rfl
  | cons lexeme rest inductionHypothesis =>
      rw [Prelude.shelters, Bool.and_eq_true] at sheltered
      have taken := progress.continueStatement_behind atName prelude sheltered.1
      have later :
          Prelude.shelters Prelude.isTerminator
              (Prelude.depthBehind 0 (prelude ++ [lexeme])) rest =
            true := by
        rw [Prelude.depthBehind_append]
        exact sheltered.2
      have step :
          (progress.wait (.behind atName prelude)).step (.bare lexeme) =
            .ok (progress.wait (.behind atName (prelude ++ [lexeme]))) :=
        taken
      have tail := inductionHypothesis later
      rw [List.append_assoc, List.singleton_append] at tail
      rw [List.map_cons, steps_cons, step]
      exact tail

/-- Between statements, the lexemes of a prelude are read as a statement. -/
theorem steps_introduces
    {progress : Progress Unit}
    (idle : progress.pending = none)
    {start leading : List Lexeme}
    {atName : Option Text}
    (introduces : Introduces start atName leading)
    (sheltered : Prelude.shelters Prelude.isTerminator 0 leading = true)
    (more : List Lexeme) :
    progress.steps ((start ++ more).map Token.bare) =
      (progress.wait (.behind atName leading)).steps (more.map Token.bare) := by
  have reads := @steps_behind progress atName [] leading sheltered
  have begins :
      progress.steps (start.map Token.bare) =
        (progress.wait (.behind atName [])).steps (leading.map Token.bare) := by
    obtain ⟨blocks, items, pending⟩ := progress
    cases idle
    cases introduces with
    | atWord =>
        rfl
    | @plain first rest opens =>
        have step :
            step ⟨blocks, items, none⟩ (.bare first) =
              (wait ⟨blocks, items, none⟩ (.behind none [])).step (.bare first) := by
          cases first with
          | whitespace | comment | atWord | endOfSource =>
              cases opens
          | semicolon | rightBrace =>
              cases sheltered
          | _ =>
              rfl
        rw [List.map_cons, steps_cons, steps_cons, step]
  rw [List.map_append, steps_append, begins, reads]
  rfl

theorem parens_behind
    {prelude : List Lexeme}
    (complete : Prelude.isPrelude prelude = true)
    (atName : Option Text) :
    (Pending.behind atName prelude).parens = [] := by
  simp only [Prelude.isPrelude, Bool.and_eq_true, beq_iff_eq] at complete
  simp [Pending.behind, complete.2]

/-- A statement can be settled only outside its parentheses. -/
theorem closed_of_settle
    {progress settled : Progress Unit}
    (settles : progress.settle = .ok settled) :
    ∀ pending ∈ progress.pending, pending.parens = [] := by
  obtain ⟨blocks, items, pending⟩ := progress
  intro pending' isPending
  cases isPending
  obtain ⟨atName, place, lexemes, parens⟩ := pending'
  cases parens with
  | nil =>
      rfl
  | cons paren parens =>
      cases settles

/-- Outside parentheses a right brace settles and closes the block. -/
theorem step_rightBrace
    {progress : Progress Unit}
    (closed : ∀ pending ∈ progress.pending, pending.parens = []) :
    progress.step (.bare .rightBrace) =
      progress.settle.bind fun settled => settled.closeBlock () := by
  obtain ⟨blocks, items, pending⟩ := progress
  cases pending with
  | none =>
      rfl
  | some pending =>
      obtain ⟨atName, place, lexemes, parens⟩ := pending
      have outside : parens = [] :=
        closed _ rfl
      subst outside
      rfl

/-- The end of the source adds nothing to a statement. -/
theorem finish_endOfSource
    (progress : Progress Place)
    (place : Place) :
    (progress.step ⟨.endOfSource, place⟩).bind finish = progress.finish := by
  obtain ⟨blocks, items, pending⟩ := progress
  cases pending with
  | none =>
      rfl
  | some pending =>
      have waits :
          step ⟨blocks, items, some pending⟩ ⟨.endOfSource, place⟩ =
            .ok ⟨blocks, items, some (pending.extend ⟨.endOfSource, place⟩)⟩ :=
        rfl
      have settles :
          settle ⟨blocks, items, some (pending.extend ⟨.endOfSource, place⟩)⟩ =
            settle ⟨blocks, items, some pending⟩ := by
        simp only [settle, endStatement, Pending.item_endOfSource]
        rfl
      rw [waits]
      show finish _ = _
      rw [finish, settles]
      rfl

/-- The lexemes of a statement leave it outside its parentheses. -/
theorem steps_of_isPrelude
    {progress : Progress Unit}
    (idle : progress.pending = none)
    {lexemes prelude : List Lexeme}
    {atName : Option Text}
    (introduces : Introduces lexemes atName prelude)
    (complete : Prelude.isPrelude prelude = true) :
    progress.steps (lexemes.map Token.bare) =
        .ok (progress.wait (.behind atName prelude)) ∧
      (Pending.behind atName prelude).parens = [] := by
  have sheltered := (Bool.and_eq_true_iff.mp complete).1
  have steps := steps_introduces idle introduces sheltered []
  rw [List.append_nil] at steps
  exact ⟨steps, parens_behind complete atName⟩

/-- The lexemes of a statement without a block leave it ready to end. -/
theorem steps_of_states
    {progress : Progress Unit}
    (idle : progress.pending = none)
    {lexemes : List Lexeme}
    {item : Item Unit}
    (states : States lexemes item) :
    ∃ pending,
      progress.steps (lexemes.map Token.bare) = .ok (progress.wait pending) ∧
        pending.parens = [] ∧
          pending.item = .ok item := by
  obtain ⟨atName, prelude, introduces, complete⟩ :
      ∃ atName prelude,
        Introduces lexemes atName prelude ∧ Prelude.isPrelude prelude = true := by
    cases states with
    | atStatement complete =>
        exact ⟨_, _, .atWord, complete⟩
    | declaration opens complete =>
        exact ⟨_, _, .plain opens, complete⟩
  obtain ⟨steps, closed⟩ := steps_of_isPrelude idle introduces complete
  exact ⟨.behind atName prelude, steps, closed,
    (Pending.item_behind_eq_ok_iff introduces complete).mpr states⟩

/-- The lexemes before a block leave its header ready. -/
theorem steps_of_heads
    {progress : Progress Unit}
    (idle : progress.pending = none)
    {lexemes : List Lexeme}
    {header : Header Unit}
    (heads : Heads lexemes header) :
    ∃ pending,
      progress.steps (lexemes.map Token.bare) = .ok (progress.wait pending) ∧
        pending.parens = [] ∧
          pending.header () = .ok header := by
  obtain ⟨atName, prelude, introduces, complete⟩ :
      ∃ atName prelude,
        Introduces lexemes atName prelude ∧ Prelude.isPrelude prelude = true := by
    cases heads with
    | atBlock complete =>
        exact ⟨_, _, .atWord, complete⟩
    | rule opens complete =>
        exact ⟨_, _, .plain opens, complete⟩
  obtain ⟨steps, closed⟩ := steps_of_isPrelude idle introduces complete
  exact ⟨.behind atName prelude, steps, closed,
    (Pending.header_behind_eq_ok_iff introduces complete).mpr heads⟩

theorem step_semicolon
    (progress : Progress Unit)
    {pending : Pending Unit}
    (closed : pending.parens = []) :
    (progress.wait pending).step (.bare .semicolon) =
      pending.item.map progress.add := by
  obtain ⟨atName, place, lexemes, parens⟩ := pending
  cases closed
  rfl

theorem settle_wait
    (progress : Progress Unit)
    {pending : Pending Unit}
    (closed : pending.parens = []) :
    (progress.wait pending).settle = pending.item.map progress.add := by
  simp only [settle, wait, closed]
  rfl

theorem step_leftBrace
    (progress : Progress Unit)
    {pending : Pending Unit}
    (closed : pending.parens = []) :
    (progress.wait pending).step (.bare .leftBrace) =
      (pending.header ()).map fun header =>
        ⟨⟨progress.items, header, ()⟩ :: progress.blocks, [], none⟩ := by
  obtain ⟨atName, place, lexemes, parens⟩ := pending
  cases closed
  rfl

/-- Along a derivation the parser comes to the derived items. -/
theorem settle_of_grammar
    {lexemes : List Lexeme}
    {items : List (Item Unit)}
    (grammar : Grammar lexemes items)
    {progress : Progress Unit}
    (idle : progress.pending = none) :
    (progress.steps (lexemes.map Token.bare)).bind settle =
      .ok ⟨progress.blocks, items.reverse ++ progress.items, none⟩ := by
  induction grammar generalizing progress with
  | nil =>
      obtain ⟨blocks, before, pending⟩ := progress
      cases idle
      rfl
  | @whitespace blanks rest items _ inductionHypothesis =>
      have step : progress.step (.bare (.whitespace blanks)) = .ok progress := by
        simp only [Progress.step, idle]
        rfl
      rw [List.map_cons, steps_cons, step]
      exact inductionHypothesis idle
  | @comment body rest items _ inductionHypothesis =>
      have step :
          progress.step (.bare (.comment body)) =
            .ok (progress.add (.comment body)) := by
        simp only [Progress.step, idle]
        rfl
      rw [List.map_cons, steps_cons, step, List.reverse_cons, List.append_assoc]
      exact inductionHypothesis rfl
  | @separator rest items _ inductionHypothesis =>
      have step : progress.step (.bare .semicolon) = .ok progress := by
        simp only [Progress.step, idle]
        rfl
      rw [List.map_cons, steps_cons, step]
      exact inductionHypothesis idle
  | @statement lexemes rest item items states _ inductionHypothesis =>
      obtain ⟨pending, steps, closed, stated⟩ := steps_of_states idle states
      have tail := @inductionHypothesis (progress.add item) rfl
      rw [List.map_append, List.map_cons, steps_append, steps, List.reverse_cons,
        List.append_assoc]
      show ((progress.wait pending).steps _).bind settle = _
      rw [steps_cons, step_semicolon progress closed, stated]
      exact tail
  | lastStatement states =>
      obtain ⟨pending, steps, closed, stated⟩ := steps_of_states idle states
      rw [steps]
      show (progress.wait pending).settle = _
      rw [settle_wait progress closed, stated]
      rfl
  | @block lexemes inner rest header children items heads _ _ innerHypothesis restHypothesis =>
      obtain ⟨pending, steps, closed, headed⟩ := steps_of_heads idle heads
      have opens := step_leftBrace progress closed
      obtain ⟨between, reaches, settles⟩ :=
        exists_of_bind_eq_ok
          (@innerHypothesis
            ⟨⟨progress.items, header, ()⟩ :: progress.blocks, [], none⟩ rfl)
      have closes :
          between.step (.bare .rightBrace) =
            .ok (progress.add (header.enclose children)) := by
        rw [step_rightBrace (closed_of_settle settles), settles]
        simp [Except.bind, closeBlock, add]
      have tail := @restHypothesis (progress.add (header.enclose children)) rfl
      simp only [List.map_append, List.map_cons, steps_append, steps_cons, steps,
        Except.bind, Except.map, opens, headed, reaches, closes] at tail ⊢
      rw [tail]
      simp [add]

theorem finish_of_grammar
    {lexemes : List Lexeme}
    {items : List (Item Unit)}
    (grammar : Grammar lexemes items) :
    (initial.steps (lexemes.map Token.bare)).bind finish = .ok items := by
  obtain ⟨between, reaches, settles⟩ :=
    exists_of_bind_eq_ok (@settle_of_grammar _ _ grammar initial rfl)
  rw [reaches]
  simp [Except.bind, finish, settles, initial, bind]

/--
What lexemes must be like behind some open blocks and the items of the innermost
one, the latest first, for a sheet to come out: they complete each block in turn
and then the sheet.
-/
def Closes :
    List (OpenBlock Unit) →
      List (Item Unit) →
      List Lexeme →
      List (Item Unit) →
      Prop
  | [], items, lexemes, sheet =>
      ∃ more, Grammar lexemes more ∧ sheet = items.reverse ++ more
  | block :: blocks, items, lexemes, sheet =>
      ∃ inner after more,
        lexemes = inner ++ .rightBrace :: after ∧
          Grammar inner more ∧
            Closes blocks
              (block.header.enclose (items.reverse ++ more) :: block.before)
              after sheet

/-- What can stand before every derivation can stand before what closes blocks. -/
theorem Closes.prepend
    {blocks : List (OpenBlock Unit)}
    {items new sheet : List (Item Unit)}
    {lexemes leading : List Lexeme}
    (closes : Closes blocks (new.reverse ++ items) lexemes sheet)
    (extends' :
      ∀ {rest more}, Grammar rest more → Grammar (leading ++ rest) (new ++ more)) :
    Closes blocks items (leading ++ lexemes) sheet := by
  cases blocks with
  | nil =>
      obtain ⟨more, grammar, rfl⟩ := closes
      exact ⟨new ++ more, extends' grammar, by simp⟩
  | cons block blocks =>
      obtain ⟨inner, after, more, rfl, grammar, outer⟩ := closes
      exact ⟨leading ++ inner, after, new ++ more, by simp, extends' grammar,
        by simpa using outer⟩

/-- Lexemes divide where the first terminator outside parentheses stands. -/
theorem exists_sheltered
    (depth : Nat)
    (lexemes : List Lexeme) :
    ∃ leading rest,
      lexemes = leading ++ rest ∧
        Prelude.shelters Prelude.isTerminator depth leading = true ∧
          ∀ first ∈ rest.head?,
            Prelude.isTerminator first = true ∧
              Prelude.depthBehind depth leading = 0 := by
  induction lexemes generalizing depth with
  | nil =>
      exact ⟨[], [], rfl, rfl, by simp⟩
  | cons lexeme others inductionHypothesis =>
      by_cases sheltered : (depth != 0 || !Prelude.isTerminator lexeme) = true
      · obtain ⟨leading, rest, rfl, shelters, ends⟩ :=
          inductionHypothesis (Prelude.depthAfter depth lexeme)
        exact ⟨lexeme :: leading, rest, rfl,
          by rw [Prelude.shelters, sheltered, shelters]; rfl, ends⟩
      · refine ⟨[], lexeme :: others, rfl, rfl, ?_⟩
        intro first isFirst
        cases isFirst
        have both : depth = 0 ∧ Prelude.isTerminator lexeme = true := by
          simpa using sheltered
        exact ⟨both.2, both.1⟩

/-- Between statements, the parser takes some lexemes up to their end, as a sheet. -/
def Accepts
    (blocks : List (OpenBlock Unit))
    (items : List (Item Unit))
    (lexemes : List Lexeme)
    (sheet : List (Item Unit)) : Prop :=
  (steps ⟨blocks, items, none⟩ (lexemes.map Token.bare)).bind finish = .ok sheet

theorem exists_step
    {progress : Progress Unit}
    {token : Token Unit}
    {tokens : List (Token Unit)}
    {sheet : List (Item Unit)}
    (accepted : (progress.steps (token :: tokens)).bind finish = .ok sheet) :
    ∃ next,
      progress.step token = .ok next ∧
        (next.steps tokens).bind finish = .ok sheet := by
  obtain ⟨reached, steps, finishes⟩ := exists_of_bind_eq_ok accepted
  rw [steps_cons] at steps
  obtain ⟨next, step, others⟩ := exists_of_bind_eq_ok steps
  exact ⟨next, step, by rw [others]; exact finishes⟩

/-- A statement that ends without a block is one that the grammar states. -/
theorem exists_states
    {progress ended : Progress Unit}
    {start leading : List Lexeme}
    {atName : Option Text}
    (introduces : Introduces start atName leading)
    (complete : Prelude.isPrelude leading = true)
    (ends : (Pending.behind atName leading).item.map progress.add = .ok ended) :
    ∃ item, States start item ∧ progress.add item = ended := by
  obtain ⟨item, stated, added⟩ := exists_of_map_eq_ok ends
  exact ⟨item, (Pending.item_behind_eq_ok_iff introduces complete).mp stated, added⟩

/-- Behind any number of lexemes, what is accepted closes the open blocks. -/
def Resumes
    (lexemes : List Lexeme)
    (sheet : List (Item Unit)) : Prop :=
  ∀ before more, lexemes = before ++ more → before ≠ [] →
    ∀ {blocks items}, Accepts blocks items more sheet → Closes blocks items more sheet

section Resuming

variable {blocks : List (OpenBlock Unit)} {items sheet : List (Item Unit)}

/-- A statement goes up to a terminator outside its parentheses. -/
theorem closes_of_statement
    {start leading rest : List Lexeme}
    {atName : Option Text}
    (introduces : Introduces start atName leading)
    (sheltered : Prelude.shelters Prelude.isTerminator 0 leading = true)
    (ends :
      ∀ first ∈ rest.head?,
        Prelude.isTerminator first = true ∧ Prelude.depthBehind 0 leading = 0)
    (accepted : Accepts blocks items (start ++ rest) sheet)
    (resumes : Resumes (start ++ rest) sheet) :
    Closes blocks items (start ++ rest) sheet := by
  rw [Accepts, steps_introduces rfl introduces sheltered] at accepted
  cases rest with
  | nil =>
      have finishes :
          finish (wait ⟨blocks, items, none⟩ (.behind atName leading)) = .ok sheet :=
        accepted
      obtain ⟨settled, settles, complete⟩ := exists_of_bind_eq_ok finishes
      have outside : Prelude.depthBehind 0 leading = 0 := by
        cases depth : Prelude.depthBehind 0 leading with
        | zero =>
            rfl
        | succ depth' =>
            simp [settle, wait, Pending.behind, depth, List.replicate_succ] at settles
      have isPrelude : Prelude.isPrelude leading = true := by
        simp [Prelude.isPrelude, sheltered, outside]
      rw [settle_wait _ (parens_behind isPrelude atName)] at settles
      obtain ⟨item, states, rfl⟩ := exists_states introduces isPrelude settles
      cases blocks with
      | nil =>
          cases complete
          exact ⟨[item], by simpa using Grammar.lastStatement states, by simp [add]⟩
      | cons block blocks =>
          cases complete
  | cons first more =>
      obtain ⟨terminates, outside⟩ := ends first rfl
      have isPrelude : Prelude.isPrelude leading = true := by
        simp [Prelude.isPrelude, sheltered, outside]
      have closed := parens_behind isPrelude atName
      obtain ⟨next, step, accepted⟩ := exists_step accepted
      have later :=
        @resumes (start ++ [first]) more (List.append_cons start first more) (by simp)
      cases first with
      | leftBrace =>
          rw [step_leftBrace _ closed] at step
          obtain ⟨header, headed, rfl⟩ := exists_of_map_eq_ok step
          have heads := (Pending.header_behind_eq_ok_iff introduces isPrelude).mp headed
          obtain ⟨inner, after, children, rfl, grammar, outer⟩ := later accepted
          have whole :
              start ++ .leftBrace :: (inner ++ .rightBrace :: after) =
                (start ++ .leftBrace :: (inner ++ [.rightBrace])) ++ after := by
            simp
          rw [whole]
          refine @Closes.prepend blocks items [header.enclose children] _ _ _ outer ?_
          intro rest others derived
          have block := Grammar.block heads grammar derived
          simpa using block
      | semicolon =>
          rw [step_semicolon _ closed] at step
          obtain ⟨item, states, rfl⟩ := exists_states introduces isPrelude step
          rw [List.append_cons]
          refine @Closes.prepend blocks items [item] _ _ _ (later accepted) ?_
          intro rest others derived
          have statement := Grammar.statement states derived
          simpa using statement
      | rightBrace =>
          rw [step_rightBrace (fun _ isPending => by cases isPending; exact closed)]
            at step
          obtain ⟨ended, settles, closes⟩ := exists_of_bind_eq_ok step
          rw [settle_wait _ closed] at settles
          obtain ⟨item, states, rfl⟩ := exists_states introduces isPrelude settles
          cases blocks with
          | nil =>
              cases closes
          | cons block blocks =>
              cases closes
              refine ⟨start, more, [item], rfl, .lastStatement states, ?_⟩
              simpa [add] using later accepted
      | _ =>
          cases terminates

/-- A statement that starts with its prelude goes up to a terminator, too. -/
theorem closes_of_opensStatement
    {first : Lexeme}
    {rest : List Lexeme}
    (opens : first.opensStatement = true)
    (notTerminator : Prelude.isTerminator first = false)
    (accepted : Accepts blocks items (first :: rest) sheet)
    (resumes : Resumes (first :: rest) sheet) :
    Closes blocks items (first :: rest) sheet := by
  obtain ⟨leading, behind, whole, sheltered, ends⟩ := exists_sheltered 0 (first :: rest)
  cases leading with
  | nil =>
      cases whole
      obtain ⟨terminates, -⟩ := ends first rfl
      rw [notTerminator] at terminates
      cases terminates
  | cons lexeme others =>
      cases whole
      exact closes_of_statement (.plain opens) sheltered ends accepted resumes

/-- What is accepted from one lexeme on closes the open blocks. -/
theorem closes_of_cons
    {lexeme : Lexeme}
    {rest : List Lexeme}
    (notEnd : lexeme ≠ .endOfSource)
    (accepted : Accepts blocks items (lexeme :: rest) sheet)
    (resumes : Resumes (lexeme :: rest) sheet) :
    Closes blocks items (lexeme :: rest) sheet := by
  have later := @resumes [lexeme] rest rfl (List.cons_ne_nil lexeme [])
  obtain ⟨next, step, tail⟩ := exists_step accepted
  cases lexeme with
  | whitespace blanks =>
      cases step
      exact @Closes.prepend blocks items [] sheet rest [.whitespace blanks]
        (later tail) .whitespace
  | semicolon =>
      cases step
      exact @Closes.prepend blocks items [] sheet rest [.semicolon]
        (later tail) .separator
  | comment body =>
      cases step
      exact @Closes.prepend blocks items [.comment body] sheet rest [.comment body]
        (later tail) .comment
  | endOfSource =>
      exact absurd rfl notEnd
  | leftBrace =>
      cases step
  | rightBrace =>
      cases blocks with
      | nil =>
          cases step
      | cons block blocks =>
          cases step
          exact ⟨[], rest, [], rfl, .nil, by simpa using later tail⟩
  | atWord name =>
      obtain ⟨leading, behind, rfl, sheltered, ends⟩ := exists_sheltered 0 rest
      exact closes_of_statement .atWord sheltered ends accepted resumes
  | _ =>
      exact closes_of_opensStatement rfl rfl accepted resumes

/-- What the parser accepts between statements closes the open blocks. -/
theorem closes_of_accepts
    {lexemes : List Lexeme}
    (unended : .endOfSource ∉ lexemes)
    (accepted : Accepts blocks items lexemes sheet) :
    Closes blocks items lexemes sheet := by
  induction size : lexemes.length using Nat.strongRecOn
    generalizing lexemes blocks items with
  | ind n inductionHypothesis =>
  subst size
  cases lexemes with
  | nil =>
      cases blocks with
      | nil =>
          cases accepted
          exact ⟨[], .nil, by simp⟩
      | cons block blocks =>
          cases accepted
  | cons lexeme rest =>
      have notEnd : lexeme ≠ .endOfSource := by
        rintro rfl
        exact unended List.mem_cons_self
      refine closes_of_cons notEnd accepted ?_
      intro before more whole taken blocks items acceptedMore
      rw [whole] at inductionHypothesis unended
      have shorter : more.length < (before ++ more).length := by
        have positive := List.length_pos_iff.mpr taken
        rw [List.length_append]
        omega
      exact inductionHypothesis more.length shorter
        (fun member => unended (List.mem_append_right before member)) acceptedMore rfl

end Resuming

end Progress

namespace Item

/-- The end of the source adds nothing to what the lexemes before it make up. -/
theorem ofTokens_endOfSource
    (lexemes : List Lexeme) :
    ofTokens ((lexemes ++ [Lexeme.endOfSource]).map Token.bare) =
      (Progress.initial.steps (lexemes.map Token.bare)).bind Progress.finish := by
  unfold ofTokens
  rw [List.map_append, Progress.steps_append]
  cases Progress.initial.steps (lexemes.map Token.bare) with
  | error failure =>
      rfl
  | ok progress =>
      rw [List.map_singleton]
      have last :
          (progress.step (.bare .endOfSource)).bind Progress.finish = progress.finish :=
        progress.finish_endOfSource ()
      rw [Except.bind, Except.bind, ← last, Progress.steps_cons]
      cases progress.step (.bare .endOfSource) <;> rfl

/-- Parsing gives a sheet exactly when the grammar derives it from the lexemes. -/
theorem ofTokens_eq_ok_iff
    {lexemes : List Lexeme}
    (unended : Lexeme.endOfSource ∉ lexemes)
    {sheet : List (Item Unit)} :
    ofTokens ((lexemes ++ [Lexeme.endOfSource]).map Token.bare) = .ok sheet ↔
      Grammar lexemes sheet := by
  rw [ofTokens_endOfSource]
  constructor
  · intro accepted
    obtain ⟨more, grammar, rfl⟩ := Progress.closes_of_accepts unended accepted
    exact grammar
  · exact Progress.finish_of_grammar

/-- A sheet is parsed from a source exactly when the grammar derives it. -/
theorem ofSource_eq_ok_iff
    {source : Text}
    {sheet : List (Item Unit)} :
    (∃ items, ofSource source = .ok items ∧ bare items = sheet) ↔
      ∃ lexemes, Lexeme.ofText? source = some lexemes ∧ Grammar lexemes sheet := by
  cases scanned : Token.scan source with
  | error failure =>
      have noItems : ofSource source = .error ⟨.unclosed failure.fault, failure.place⟩ := by
        simp [ofSource, scanned]
      have noLexemes : Lexeme.ofText? source = none := by
        simp [Lexeme.ofText?, scanned, Except.toOption]
      simp [noItems, noLexemes]
  | ok tokens =>
      obtain ⟨lexemes, shape, reads⟩ := Lexeme.reads_of_scanFrom scanned
      have found := Lexeme.ofText?_eq_some_iff.mpr reads
      have told :
          (tokens.map fun token => (⟨token.lexeme, ()⟩ : Token Unit)) =
            (lexemes ++ [Lexeme.endOfSource]).map Token.bare := by
        rw [← shape, List.map_map]
        rfl
      rw [ofSource_eq_ofTokens scanned, told,
        ofTokens_eq_ok_iff reads.endOfSource_not_mem, found]
      simp

/-- The lexemes of a source that parses are read up to its end and derive its items. -/
theorem exists_grammar_of_ofSource
    {source : Text}
    {items : List (Item Span)}
    (parsed : ofSource source = .ok items) :
    ∃ lexemes, Lexeme.Reads source lexemes [] ∧ Grammar lexemes (bare items) := by
  obtain ⟨lexemes, found, grammar⟩ := ofSource_eq_ok_iff.mp ⟨items, parsed, rfl⟩
  exact ⟨lexemes, Lexeme.ofText?_eq_some_iff.mp found, grammar⟩

/-- Parsing succeeds on exactly the texts of the grammar. -/
theorem ofSource_ok_iff_grammar
    (source : Text) :
    (∃ items, ofSource source = .ok items) ↔
      ∃ lexemes, Lexeme.ofText? source = some lexemes ∧
        ∃ sheet, Grammar lexemes sheet := by
  constructor
  · rintro ⟨items, parsed⟩
    obtain ⟨lexemes, scanned, grammar⟩ := ofSource_eq_ok_iff.mp ⟨items, parsed, rfl⟩
    exact ⟨lexemes, scanned, bare items, grammar⟩
  · rintro ⟨lexemes, scanned, sheet, grammar⟩
    obtain ⟨items, parsed, -⟩ := ofSource_eq_ok_iff.mpr ⟨lexemes, scanned, grammar⟩
    exact ⟨items, parsed⟩

end Item

end PageSheet
