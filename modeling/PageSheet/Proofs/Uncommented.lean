import PageSheet.Proofs.FirstLexeme
import PageSheet.Proofs.Places
namespace PageSheet

/-!
# Comments do not matter

Leaving the comments out of a list of tokens leaves them out of the parsed items and
changes nothing else: a comment between statements is an item of its own, a comment
inside a statement has no spelling, and neither starts, splits or ends a statement.
A page is the same with and without the comments of its sheet.
-/

/-- Lexemes without the comments among them. -/
def Lexeme.uncommented (lexemes : List Lexeme) : List Lexeme :=
  lexemes.filter fun lexeme => !lexeme.isComment

namespace Lexeme

theorem uncommented_cons_comment
    {lexeme : Lexeme}
    (comments : lexeme.isComment = true)
    (rest : List Lexeme) :
    uncommented (lexeme :: rest) = uncommented rest :=
  List.filter_cons_of_neg (by simp [comments])

theorem uncommented_cons
    {lexeme : Lexeme}
    (stays : lexeme.isComment = false)
    (rest : List Lexeme) :
    uncommented (lexeme :: rest) = lexeme :: uncommented rest :=
  List.filter_cons_of_pos (by simp [stays])

/-- Comments have no part in the spelling of lexemes. -/
theorem spellings_uncommented
    (lexemes : List Lexeme) :
    spellings (uncommented lexemes) = spellings lexemes := by
  induction lexemes with
  | nil =>
      rfl
  | cons lexeme rest inductionHypothesis =>
      by_cases comments : lexeme.isComment = true
      · rw [uncommented_cons_comment comments, inductionHypothesis, spellings_cons,
          spelling_of_isComment comments, List.nil_append]
      · rw [uncommented_cons (by simpa using comments), spellings_cons, spellings_cons,
          inductionHypothesis]

end Lexeme

namespace Prelude

theorem text_uncommented
    (lexemes : List Lexeme) :
    text (Lexeme.uncommented lexemes) = text lexemes :=
  congrArg Text.trim (Lexeme.spellings_uncommented lexemes)

/-- Comments leave the first colon outside parentheses where it is. -/
theorem splitColon?_uncommented
    (depth : Nat)
    (lexemes : List Lexeme) :
    splitColon? depth (Lexeme.uncommented lexemes) =
      (splitColon? depth lexemes).map fun (before, behind) =>
        (Lexeme.uncommented before, Lexeme.uncommented behind) := by
  fun_induction splitColon? depth lexemes with
  | case1 =>
      simp [Lexeme.uncommented, splitColon?]
  | case2 rest =>
      rfl
  | case3 depth lexeme rest notHere inductionHypothesis =>
      by_cases comments : lexeme.isComment = true
      · have same : depthAfter depth lexeme = depth := by
          cases lexeme with
          | comment =>
              rfl
          | _ =>
              cases comments
        rw [Lexeme.uncommented_cons_comment comments]
        rw [same] at inductionHypothesis ⊢
        rw [inductionHypothesis, Option.map_map]
        congr 1
        funext parts
        simp [Lexeme.uncommented_cons_comment comments]
      · have stays : lexeme.isComment = false := by
          simpa using comments
        rw [Lexeme.uncommented_cons stays, splitColon?.eq_3 _ _ _ notHere,
          inductionHypothesis, Option.map_map, Option.map_map]
        congr 1
        funext parts
        simp [Lexeme.uncommented_cons stays]

theorem declaration_uncommented
    (lexemes : List Lexeme)
    (place : Place) :
    declaration (Lexeme.uncommented lexemes) place = declaration lexemes place := by
  unfold declaration
  rw [splitColon?_uncommented, text_uncommented]
  cases splitColon? 0 lexemes with
  | none =>
      rfl
  | some parts =>
      simp only [Option.map_some, text_uncommented]

end Prelude

namespace Item

mutual

/-- An item without the comments in it; a comment itself leaves nothing. -/
def uncommented? : Item Place → Option (Item Place)
  | .rule selector children place =>
      some (.rule selector (uncommentedIn children) place)
  | .declaration stated => some (.declaration stated)
  | .atStatement name params place => some (.atStatement name params place)
  | .atBlock name params children place =>
      some (.atBlock name params (uncommentedIn children) place)
  | .comment _ => none

/-- A list of items without the comments at any depth. -/
def uncommentedIn : List (Item Place) → List (Item Place)
  | [] => []
  | item :: rest => item.uncommented?.toList ++ uncommentedIn rest

end

theorem uncommentedIn_eq_filterMap
    (items : List (Item Place)) :
    uncommentedIn items = items.filterMap uncommented? := by
  induction items with
  | nil =>
      rfl
  | cons item rest inductionHypothesis =>
      rw [uncommentedIn, inductionHypothesis]
      cases shape : item.uncommented? <;> simp [shape]

theorem uncommentedIn_cons
    {item item' : Item Place}
    (stays : item.uncommented? = some item')
    (rest : List (Item Place)) :
    uncommentedIn (item :: rest) = item' :: uncommentedIn rest := by
  rw [uncommentedIn, stays]
  rfl

theorem uncommentedIn_reverse
    (items : List (Item Place)) :
    uncommentedIn items.reverse = (uncommentedIn items).reverse := by
  simp only [uncommentedIn_eq_filterMap, List.filterMap_reverse]

end Item

theorem Header.uncommented?_enclose
    (children : List (Item Place))
    (header : Header Place) :
    (header.enclose children).uncommented? =
      some (header.enclose (Item.uncommentedIn children)) := by
  cases header <;> rfl

namespace Pending

/-- A statement without the comments in its prelude. -/
def uncommented (pending : Pending Place) : Pending Place where
  atName :=
    pending.atName
  place :=
    pending.place
  lexemes :=
    Lexeme.uncommented pending.lexemes
  parens :=
    pending.parens

theorem prelude_uncommented
    (pending : Pending Place) :
    pending.uncommented.prelude = Lexeme.uncommented pending.prelude :=
  List.filter_reverse.symm

/-- The comments in a statement are no part of the item that it is. -/
theorem item_uncommented
    (pending : Pending Place) :
    pending.uncommented.item = pending.item := by
  unfold Pending.item
  rw [prelude_uncommented, Prelude.text_uncommented, Prelude.declaration_uncommented]
  rfl

theorem header_uncommented
    (pending : Pending Place)
    (brace : Place) :
    pending.uncommented.header brace = pending.header brace := by
  unfold Pending.header
  rw [prelude_uncommented, Prelude.text_uncommented]
  rfl

/-- A statement without a block is no comment and has none in it. -/
theorem uncommented?_of_item
    {pending : Pending Place}
    {item : Item Place}
    (stated : pending.item = .ok item) :
    item.uncommented? = some item := by
  unfold Pending.item at stated
  split at stated
  · cases stated
    rfl
  · cases declared : Prelude.declaration pending.prelude pending.place with
    | error failure =>
        rw [declared] at stated
        cases stated
    | ok declaration =>
        rw [declared] at stated
        cases stated
        rfl

end Pending

/-- An open block without the comments before it. -/
def OpenBlock.uncommented (block : OpenBlock Place) : OpenBlock Place where
  before :=
    Item.uncommentedIn block.before
  header :=
    block.header
  brace :=
    block.brace

namespace Progress

/-- What is known of a sheet, without its comments. -/
def uncommented (progress : Progress Place) : Progress Place where
  blocks :=
    progress.blocks.map OpenBlock.uncommented
  items :=
    Item.uncommentedIn progress.items
  pending :=
    progress.pending.map Pending.uncommented

/-- Leaving comments out respects all that the parser does with other tokens. -/
theorem carries_uncommented :
    @Carries Place Place id (fun lexeme => !lexeme.isComment) uncommented
      Pending.uncommented where
  pending := fun _ => rfl
  parens := fun pending => (List.map_id pending.parens).symm
  starts := fun _ _ => rfl
  extending := by
    intro pending token stays
    have kept :=
      Lexeme.uncommented_cons (by simpa using stays) pending.lexemes
    simp only [Pending.extend, Pending.uncommented, Token.relocate, id_eq, kept]
  waits := fun _ _ => rfl
  remarks := fun _ _ stays => nomatch stays
  ends := by
    intro progress pending
    unfold endStatement
    rw [pending.item_uncommented]
    cases stated : pending.item with
    | error failure =>
        rfl
    | ok item =>
        have kept :=
          Item.uncommentedIn_cons (Pending.uncommented?_of_item stated) progress.items
        simp only [Except.map, relocated, add, uncommented, kept]
        rfl
  opens := by
    intro progress pending brace
    unfold openBlock
    rw [id_eq, pending.header_uncommented]
    cases pending.header brace <;> rfl
  closes := by
    intro progress brace
    obtain ⟨blocks, items, pending⟩ := progress
    cases blocks with
    | nil =>
        rfl
    | cons block blocks =>
        have kept :=
          Item.uncommentedIn_cons (block.header.uncommented?_enclose items.reverse)
            block.before
        simp only [closeBlock, uncommented, List.map_cons, relocated, kept,
          Item.uncommentedIn_reverse]
        rfl

/-- A comment changes nothing but the comments that are known. -/
theorem exists_step_comment
    (progress : Progress Place)
    (text : Text)
    (place : Place) :
    ∃ next,
      progress.step ⟨.comment text, place⟩ = .ok next ∧
        next.uncommented = progress.uncommented := by
  obtain ⟨blocks, items, pending⟩ := progress
  cases pending with
  | none =>
      exact ⟨add ⟨blocks, items, none⟩ (.comment text), rfl, rfl⟩
  | some pending =>
      refine ⟨wait ⟨blocks, items, some pending⟩ (pending.extend ⟨.comment text, place⟩),
        ?_, rfl⟩
      unfold step continueStatement
      cases pending.parens <;> rfl

/-- Taking the tokens that are no comments leaves the comments out. -/
theorem steps_uncommented
    (progress : Progress Place)
    (tokens : List (Token Place)) :
    progress.uncommented.steps (tokens.filter fun token => !token.lexeme.isComment) =
      relocated id uncommented (progress.steps tokens) := by
  induction tokens generalizing progress with
  | nil =>
      rfl
  | cons token rest inductionHypothesis =>
      by_cases comments : token.lexeme.isComment = true
      · obtain ⟨lexeme, place⟩ := token
        cases lexeme with
        | comment text =>
            obtain ⟨next, step, same⟩ := progress.exists_step_comment text place
            rw [List.filter_cons_of_neg (by simp [Lexeme.isComment]), steps_cons, step,
              ← same, inductionHypothesis]
            rfl
        | _ =>
            cases comments
      · have stays : (!token.lexeme.isComment) = true := by
          simpa using comments
        have step : progress.uncommented.step token = _ :=
          carries_uncommented.step progress stays
        rw [List.filter_cons, if_pos stays, steps_cons, steps_cons, step]
        exact relocated_bind _ _ inductionHypothesis (progress.step token)

theorem finish_uncommented
    (progress : Progress Place) :
    progress.uncommented.finish =
      relocated id Item.uncommentedIn progress.finish := by
  unfold finish
  rw [carries_uncommented.settle]
  refine relocated_bind _ _ (fun settled => ?_) progress.settle
  obtain ⟨blocks, items, pending⟩ := settled
  cases blocks with
  | nil =>
      exact congrArg Except.ok (Item.uncommentedIn_reverse items).symm
  | cons block blocks =>
      rfl

end Progress

namespace Item

theorem declarationsIn_append
    (first second : List (Item Place)) :
    declarationsIn (first ++ second) = declarationsIn first ++ declarationsIn second := by
  simp only [declarationsIn_eq_flatMap, List.flatMap_append]

mutual

theorem declarations_uncommented
    (item : Item Place) :
    declarationsIn item.uncommented?.toList = item.declarations := by
  have single : ∀ other : Item Place, declarationsIn [other] = other.declarations :=
    fun other => List.append_nil other.declarations
  cases item with
  | rule selector children place =>
      exact (single _).trans (declarationsIn_uncommented children)
  | atBlock name params children place =>
      exact (single _).trans (declarationsIn_uncommented children)
  | _ =>
      rfl

theorem declarationsIn_uncommented
    (items : List (Item Place)) :
    declarationsIn (uncommentedIn items) = declarationsIn items := by
  cases items with
  | nil =>
      rfl
  | cons item rest =>
      rw [uncommentedIn, declarationsIn_append, declarations_uncommented item,
        declarationsIn_uncommented rest, declarationsIn]

end

end Item

namespace Element

variable (table : Variables)

theorem contentOf?_uncommented
    (item : Item Place) :
    item.uncommented?.bind (contentOf? table) = contentOf? table item := by
  cases item <;> rfl

/-- Comments give nothing to any element. -/
theorem conveys_uncommented :
    Conveys table table (@Item.uncommented? Place) where
  contents := contentOf?_uncommented table
  attributes := by
    intro item
    cases item with
    | rule selector children place =>
        rw [Item.uncommented?, Item.uncommentedIn_eq_filterMap]
        exact attributeOf?_rule_carried (contentOf?_uncommented table)
          selector children place place
    | _ =>
        rfl
  rules := by
    intro selector children place _
    refine ⟨place, ?_⟩
    rw [Item.uncommented?, Item.uncommentedIn_eq_filterMap]
  others := by
    intro item item' notRule carried
    cases item <;> cases carried <;> exact notRule

/-- The elements of a sheet are the same without its comments. -/
theorem ofItems_uncommentedIn
    (items : List (Item Place)) :
    ofItems table (Item.uncommentedIn items) = ofItems table items := by
  rw [Item.uncommentedIn_eq_filterMap]
  refine (conveys_uncommented table).ofItems (fun item notRule => ?_) items
  cases item with
  | rule selector children place =>
      exact ofItem?_rule_of_not_isElement notRule table table children _ place place
  | _ =>
      rfl

end Element

/-- A page is the same without the comments of its sheet. -/
theorem Page.ofItems_uncommentedIn
    (items : List (Item Place)) :
    Page.ofItems (Item.uncommentedIn items) = Page.ofItems items := by
  have table : Variables.ofItems (Item.uncommentedIn items) = Variables.ofItems items := by
    unfold Variables.ofItems
    rw [Item.declarationsIn_uncommented]
  unfold Page.ofItems
  rw [table, Element.ofItems_uncommentedIn]

end PageSheet
