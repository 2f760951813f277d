import PageSheet.Proofs.Places
import PageSheet.Proofs.Substitution
namespace PageSheet

/-!
# What does not show

The essence of a sheet is what its page can show: the rules for the document type and
for elements, in these the contents, the attributes and the rules for elements, and in
a rule for an attribute the contents.  Everything else only matters as far as it
defines variables.  So two sheets with the same essence and the same variables have
the same page, and custom properties can stand anywhere.
-/

namespace Item

/-- What a rule for an attribute takes of an item. -/
def inAttribute? : Item Place → Option (Item Place)
  | .declaration stated =>
      match Property.ofText stated.property with
      | .content => some (.declaration stated)
      | _ => none
  | _ => none

mutual

/-- What a rule for an element takes of an item. -/
def inElement? : Item Place → Option (Item Place)
  | .rule selector children place =>
      match Selector.ofText selector with
      | .element _ => some (.rule selector (inElement children) place)
      | .attr _ => some (.rule selector (children.filterMap inAttribute?) place)
      | .root => none
      | .unsupported => none
  | .declaration stated =>
      match Property.ofText stated.property with
      | .content => some (.declaration stated)
      | .attr => some (.declaration stated)
      | .custom => none
      | .style => none
  | .atStatement .. => none
  | .atBlock .. => none
  | .comment _ => none

/-- What a rule for an element takes of the items in it. -/
def inElement : List (Item Place) → List (Item Place)
  | [] => []
  | item :: rest => item.inElement?.toList ++ inElement rest

end

/-- What a page takes of an outermost item. -/
def onPage? : Item Place → Option (Item Place)
  | .rule selector children place =>
      match Selector.ofText selector with
      | .root => some (.rule selector [] place)
      | .element _ => some (.rule selector (inElement children) place)
      | .attr _ => none
      | .unsupported => none
  | _ => none

/-- What a page takes of a sheet. -/
def essence (items : List (Item Place)) : List (Item Place) :=
  items.filterMap onPage?

mutual

/-- An item without the custom properties in it; a custom property leaves nothing. -/
def withoutDefinitions? : Item Place → Option (Item Place)
  | .rule selector children place =>
      some (.rule selector (withoutDefinitions children) place)
  | .declaration stated =>
      if Property.isCustom stated.property then none else some (.declaration stated)
  | .atStatement name params place => some (.atStatement name params place)
  | .atBlock name params children place =>
      some (.atBlock name params (withoutDefinitions children) place)
  | .comment text => some (.comment text)

/-- A list of items without the custom properties at any depth. -/
def withoutDefinitions : List (Item Place) → List (Item Place)
  | [] => []
  | item :: rest => item.withoutDefinitions?.toList ++ withoutDefinitions rest

end

theorem inElement_eq_filterMap
    (items : List (Item Place)) :
    inElement items = items.filterMap inElement? := by
  induction items with
  | nil =>
      rfl
  | cons item rest inductionHypothesis =>
      rw [inElement, inductionHypothesis]
      cases shape : item.inElement? <;> simp [shape]

theorem withoutDefinitions_eq_filterMap
    (items : List (Item Place)) :
    withoutDefinitions items = items.filterMap withoutDefinitions? := by
  induction items with
  | nil =>
      rfl
  | cons item rest inductionHypothesis =>
      rw [withoutDefinitions, inductionHypothesis]
      cases shape : item.withoutDefinitions? <;> simp [shape]

end Item

/-- A custom property gives neither a content nor an attribute. -/
theorem Property.ofText_of_isCustom
    {property : Text}
    (custom : isCustom property = true) :
    ofText property = .custom := by
  have notContent : property ≠ contentText := by
    rintro rfl
    cases custom
  have notRecognised : ¬ Attribute.isRecognised property = true := by
    intro recognises
    rw [(Attribute.property_of_isRecognised recognises).2.2] at custom
    cases custom
  rw [ofText, if_neg notContent, if_neg notRecognised, if_pos custom]

namespace Element

variable (table : Variables)

theorem contentOf?_inAttribute
    (item : Item Place) :
    item.inAttribute?.bind (contentOf? table) = contentOf? table item := by
  cases item with
  | declaration stated =>
      unfold Item.inAttribute? contentOf?
      cases kind : Property.ofText stated.property <;> simp [kind]
  | _ =>
      rfl

/-- A rule for an element takes all that counts for the element. -/
theorem conveys_inElement :
    Conveys table table (@Item.inElement? Place) where
  contents := by
    intro item
    cases item with
    | rule selector children place =>
        unfold Item.inElement?
        split <;> rfl
    | declaration stated =>
        unfold Item.inElement? contentOf?
        cases kind : Property.ofText stated.property <;> simp [kind]
    | _ =>
        rfl
  attributes := by
    intro item
    cases item with
    | rule selector children place =>
        unfold Item.inElement?
        split
        · next stands =>
            simp only [Option.bind_some, attributeOf?, stands]
        · exact attributeOf?_rule_carried (contentOf?_inAttribute table)
            selector children place place
        · next stands =>
            simp only [Option.bind_none, attributeOf?, stands]
        · next stands =>
            simp only [Option.bind_none, attributeOf?, stands]
    | declaration stated =>
        unfold Item.inElement? attributeOf?
        cases kind : Property.ofText stated.property <;> simp [kind]
    | _ =>
        rfl
  rules := by
    intro selector children place isElement
    refine ⟨place, ?_⟩
    unfold Selector.isElement at isElement
    rw [Item.inElement?, Item.inElement_eq_filterMap]
    cases stands : Selector.ofText selector with
    | element tag =>
        rfl
    | _ =>
        rw [stands] at isElement
        cases isElement
  others := by
    intro item item' notRule carried
    unfold Item.inElement? at carried
    split at carried
    · split at carried <;> cases carried <;> exact notRule
    · split at carried <;> cases carried <;> rfl
    all_goals
      cases carried

/-- The elements of a sheet are those of its essence. -/
theorem ofItems_essence
    (items : List (Item Place)) :
    ofItems table (Item.essence items) = ofItems table items := by
  refine filterMap_carried (fun item => ?_) items
  cases item with
  | rule selector children place =>
      cases stands : Selector.ofText selector with
      | element tag =>
          have isRule : isElementRule (Item.rule selector children place) = true := by
            simp only [isElementRule, Selector.isElement, stands]
          have same := (conveys_inElement table).ofItem? _ isRule
          simpa only [Item.inElement?, Item.onPage?, stands] using same
      | _ =>
          simp only [Item.onPage?, stands, Option.bind_some, Option.bind_none, ofItem?]
  | _ =>
      rfl

theorem contentOf?_withoutDefinitions
    (item : Item Place) :
    item.withoutDefinitions?.bind (contentOf? table) = contentOf? table item := by
  cases item with
  | declaration stated =>
      unfold Item.withoutDefinitions?
      split
      · next custom =>
          simp only [Option.bind_none, contentOf?, Property.ofText_of_isCustom custom]
      · rfl
  | _ =>
      rfl

/-- Custom properties give nothing to any element. -/
theorem conveys_withoutDefinitions :
    Conveys table table (@Item.withoutDefinitions? Place) where
  contents := contentOf?_withoutDefinitions table
  attributes := by
    intro item
    cases item with
    | rule selector children place =>
        rw [Item.withoutDefinitions?, Item.withoutDefinitions_eq_filterMap]
        exact attributeOf?_rule_carried (contentOf?_withoutDefinitions table)
          selector children place place
    | declaration stated =>
        unfold Item.withoutDefinitions?
        split
        · next custom =>
            simp only [Option.bind_none, attributeOf?, Property.ofText_of_isCustom custom]
        · rfl
    | _ =>
        rfl
  rules := by
    intro selector children place _
    refine ⟨place, ?_⟩
    rw [Item.withoutDefinitions?, Item.withoutDefinitions_eq_filterMap]
  others := by
    intro item item' notRule carried
    unfold Item.withoutDefinitions? at carried
    split at carried
    · cases carried
      exact notRule
    · split at carried <;> cases carried
      rfl
    all_goals
      cases carried
      rfl

/-- The elements of a sheet are those of the sheet without its custom properties. -/
theorem ofItems_withoutDefinitions
    (items : List (Item Place)) :
    ofItems table (Item.withoutDefinitions items) = ofItems table items := by
  rw [Item.withoutDefinitions_eq_filterMap]
  refine (conveys_withoutDefinitions table).ofItems (fun item notRule => ?_) items
  cases item with
  | rule selector children place =>
      exact ofItem?_rule_of_not_isElement notRule table table children _ place place
  | declaration stated =>
      unfold Item.withoutDefinitions?
      split <;> rfl
  | _ =>
      rfl

/-- Tables that find the same make up the same elements. -/
theorem ofItems_eq_of_get?
    {table table' : Variables}
    (agree : ∀ text, table.get? text = table'.get? text)
    (items : List (Item Place)) :
    ofItems table items = ofItems table' items := by
  have resolves : table.resolve = table'.resolve := by
    funext raw
    unfold Variables.resolve
    rw [agree raw]
  rw [← ofItems_revaluedIn table, resolves, ofItems_revaluedIn table']

end Element

namespace Item

/-- What it means that two sheets show the same and have the same variables. -/
structure SameEssence
    (first : List (Item Place))
    (second : List (Item Place')) : Prop where
  essence : bare (essence first) = bare (essence second)
  tables :
    ∀ text, (Variables.ofItems first).get? text = (Variables.ofItems second).get? text

/--
What it means that two sheets are the same but for where custom properties stand in
them and how often, and that each of these comes to the same value in the end.
-/
structure SameButDefinitions
    (first : List (Item Place))
    (second : List (Item Place')) : Prop where
  others : bare (withoutDefinitions first) = bare (withoutDefinitions second)
  lastValues :
    ∀ name, Property.isCustom name = true →
      Declaration.lastValue? (declarationsIn first) name =
        Declaration.lastValue? (declarationsIn second) name

end Item

namespace Page

variable {first : List (Item Place)} {second : List (Item Place')}

/-- Sheets with the same variables have the same page if parts that make it up are the same. -/
theorem ofItems_eq_of_parts
    {part : List (Item Place)}
    {part' : List (Item Place')}
    (whole : ∀ table, Element.ofItems table part = Element.ofItems table first)
    (whole' : ∀ table, Element.ofItems table part' = Element.ofItems table second)
    (same : Item.bare part = Item.bare part')
    (agree :
      ∀ text, (Variables.ofItems first).get? text = (Variables.ofItems second).get? text) :
    ofItems first = ofItems second := by
  have agreeing : ∀ items : List (Item Place'), _ = _ :=
    Element.ofItems_eq_of_get? agree
  calc
    ofItems first = Element.ofItems (Variables.ofItems first) (Item.bare part) := by
      rw [Item.bare, Element.ofItems_relocateIn, whole, ofItems]
    _ = Element.ofItems (Variables.ofItems first) second := by
      rw [same, Item.bare, Element.ofItems_relocateIn, whole']
    _ = ofItems second :=
      agreeing second

theorem ofItems_eq_of_sameEssence
    (same : Item.SameEssence first second) :
    ofItems first = ofItems second :=
  ofItems_eq_of_parts (fun table => Element.ofItems_essence table first)
    (fun table => Element.ofItems_essence table second) same.essence same.tables

theorem ofItems_eq_of_sameButDefinitions
    (same : Item.SameButDefinitions first second) :
    ofItems first = ofItems second := by
  refine ofItems_eq_of_parts (fun table => Element.ofItems_withoutDefinitions table first)
    (fun table => Element.ofItems_withoutDefinitions table second) same.others ?_
  intro text
  rw [Variables.get?_ofItems, Variables.get?_ofItems]
  cases isReferent : Variables.referent? text with
  | none =>
      rfl
  | some name =>
      exact same.lastValues name (Variables.referent?_eq_some_iff.mp isReferent).1

/-- What does not show leaves the page and its markup as they are. -/
theorem unchanged_of_unseen
    (same : Item.SameEssence first second ∨ Item.SameButDefinitions first second) :
    ofItems first = ofItems second ∧ (ofItems first).html = (ofItems second).html := by
  have page : ofItems first = ofItems second :=
    same.elim ofItems_eq_of_sameEssence ofItems_eq_of_sameButDefinitions
  exact ⟨page, congrArg html page⟩

/-- A paragraph that refers to a custom property, with a custom property before it. -/
def definedBefore : List (Item Unit) :=
  [ .declaration ⟨['-', '-', 'a'], ['x'], ()⟩,
    .rule ['p']
      [.declaration ⟨Property.contentText, Variables.reference ['-', '-', 'a'], ()⟩] () ]

/-- The same paragraph with two definitions inside and behind it and with more that is unseen. -/
def definedBehind : List (Item Nat) :=
  [ .rule ['p']
      [ .declaration ⟨['-', '-', 'a'], ['y'], 1⟩,
        .declaration ⟨['t', 'o', 'p'], ['0'], 2⟩,
        .declaration ⟨Property.contentText, Variables.reference ['-', '-', 'a'], 3⟩ ] 0,
    .atBlock ['m'] []
      [.rule ['q'] [.declaration ⟨['-', '-', 'a'], ['x'], 6⟩] 5] 4,
    .comment ['c'] ]

/-- The same paragraph with nothing but its definitions moved. -/
def definedTwice : List (Item Nat) :=
  [ .rule ['p']
      [ .declaration ⟨['-', '-', 'a'], ['y'], 1⟩,
        .declaration ⟨Property.contentText, Variables.reference ['-', '-', 'a'], 3⟩,
        .declaration ⟨['-', '-', 'a'], ['x'], 4⟩ ] 0 ]

/-- Definitions can stand anywhere, and what is unseen anywhere but in the page. -/
theorem unchanged_of_unseen_moved :
    (Item.SameEssence definedBefore definedBehind ∧
      ofItems definedBefore = ofItems definedBehind ∧
        (ofItems definedBefore).html = (ofItems definedBehind).html) ∧
    (Item.SameButDefinitions definedBefore definedTwice ∧
      ofItems definedBefore = ofItems definedTwice ∧
        (ofItems definedBefore).html = (ofItems definedTwice).html) := by
  have essence : Item.SameEssence definedBefore definedBehind :=
    ⟨rfl, fun _ => rfl⟩
  have moved : Item.SameButDefinitions definedBefore definedTwice := by
    refine ⟨rfl, fun name _ => ?_⟩
    by_cases isName : ['-', '-', 'a'] = name
    · subst isName
      rfl
    · simp [Declaration.lastValue?_cons, definedBefore, definedTwice, Item.declarationsIn,
        Item.declarations, isName]
  exact ⟨⟨essence, unchanged_of_unseen (.inl essence)⟩, moved,
    unchanged_of_unseen (.inr moved)⟩

end Page

end PageSheet
