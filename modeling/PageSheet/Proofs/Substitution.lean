import PageSheet.Proofs.Conveying
import PageSheet.Proofs.LastDefinitions
import PageSheet.Proofs.Rebuilding
namespace PageSheet

/-!
# Substitution

Looking values up while a page is built comes to the same as putting them into the
sheet beforehand, wherever in the sheet the definitions stand.  Every reference to a
custom property gives way, once, to the last value of that property; after that the
page can be built without a table.
-/

/--
The text that a value is substituted by: for a reference to a declared custom property
its last value, unless that is empty, and for every other value that value itself.
-/
def Declaration.substituted
    (declarations : List (Declaration Place))
    (value : Text) :
    Text :=
  match (Variables.referent? value).bind (lastValue? declarations) with
  | none => value
  | some [] => value
  | some text => text

/-- The table of a sheet resolves every value to what it is substituted by. -/
theorem Variables.resolve_ofItems
    (items : List (Item Place)) :
    (ofItems items).resolve = Declaration.substituted (Item.declarationsIn items) := by
  funext value
  unfold resolve Declaration.substituted
  rw [get?_ofItems]
  by_cases refers : isReference value = true
  · exact if_pos refers
  · have noReferent : referent? value = none := by
      rw [Option.eq_none_iff_forall_ne_some]
      intro name isReferent
      obtain ⟨custom, rfl⟩ := referent?_eq_some_iff.mp isReferent
      exact refers (isReference_reference custom)
    rw [if_neg refers, noReferent, Option.bind_none]

namespace Item

variable (replace : Text → Text)

mutual

/-- An item with the value of every declaration in it replaced. -/
def revalued : Item Place → Item Place
  | .rule selector children place => .rule selector (revaluedIn children) place
  | .declaration stated =>
      .declaration ⟨stated.property, replace stated.value, stated.place⟩
  | .atStatement name params place => .atStatement name params place
  | .atBlock name params children place => .atBlock name params (revaluedIn children) place
  | .comment text => .comment text

/-- A list of items with the value of every declaration at any depth replaced. -/
def revaluedIn : List (Item Place) → List (Item Place)
  | [] => []
  | item :: rest => item.revalued :: revaluedIn rest

end

theorem revaluedIn_eq_filterMap
    (items : List (Item Place)) :
    revaluedIn replace items = items.filterMap fun item => some (item.revalued replace) := by
  induction items with
  | nil =>
      rfl
  | cons item rest inductionHypothesis =>
      rw [revaluedIn, inductionHypothesis]
      rfl

/-- A sheet with every reference to one of its custom properties substituted. -/
def substitutedIn (items : List (Item Place)) : List (Item Place) :=
  revaluedIn (Declaration.substituted (declarationsIn items)) items

end Item

namespace Element

variable (table : Variables)

theorem contentOf?_revalued
    (item : Item Place) :
    contentOf? .empty (item.revalued table.resolve) = contentOf? table item := by
  cases item with
  | declaration stated =>
      simp only [Item.revalued, contentOf?, Variables.resolve_empty]
  | _ =>
      rfl

theorem attributeOf?_revalued
    (item : Item Place) :
    attributeOf? .empty (item.revalued table.resolve) = attributeOf? table item := by
  cases item with
  | declaration stated =>
      simp only [Item.revalued, attributeOf?, Variables.resolve_empty]
  | rule selector children place =>
      rw [Item.revalued, Item.revaluedIn_eq_filterMap]
      exact attributeOf?_rule_carried (contentOf?_revalued table) selector children place place
  | _ =>
      rfl

/-- Values that were resolved beforehand need no table. -/
theorem conveys_revalued :
    Conveys table .empty
      (fun item : Item Place => some (item.revalued table.resolve)) where
  contents := contentOf?_revalued table
  attributes := attributeOf?_revalued table
  rules := by
    intro selector children place _
    refine ⟨place, ?_⟩
    rw [Item.revalued, Item.revaluedIn_eq_filterMap]
  others := by
    intro item item' notRule carried
    cases carried
    cases item <;> exact notRule

/-- Building with a table comes to building without one after all values are resolved. -/
theorem ofItems_revaluedIn
    (items : List (Item Place)) :
    ofItems .empty (Item.revaluedIn table.resolve items) = ofItems table items := by
  rw [Item.revaluedIn_eq_filterMap]
  refine (conveys_revalued table).ofItems (fun item notRule => ?_) items
  cases item with
  | rule selector children place =>
      exact ofItem?_rule_of_not_isElement notRule table .empty children _ place place
  | _ =>
      rfl

end Element

/-- The page of a sheet is built without a table from the sheet after substitution. -/
theorem Page.ofItems_eq_substitutedIn
    (items : List (Item Place)) :
    Page.ofItems items = Element.ofItems .empty (Item.substitutedIn items) := by
  rw [Item.substitutedIn, ← Variables.resolve_ofItems]
  exact (Element.ofItems_revaluedIn (Variables.ofItems items) items).symm

/-- What a reference gave way to is not looked up again, and nothing gives way to nothing. -/
example :
    let declarations : List (Declaration Unit) :=
      [ ⟨['-', '-', 'a'], ['x'], ()⟩,
        ⟨['-', '-', 'b'], ['y'], ()⟩,
        ⟨['-', '-', 'a'], Variables.reference ['-', '-', 'b'], ()⟩,
        ⟨['-', '-', 'c'], [], ()⟩ ]
    let substitutes := Declaration.substituted declarations ∘ Variables.reference
    substitutes ['-', '-', 'a'] = Variables.reference ['-', '-', 'b'] ∧
      substitutes ['-', '-', 'c'] = Variables.reference ['-', '-', 'c'] := by
  decide

end PageSheet
