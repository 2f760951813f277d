import PageSheet.Page
namespace PageSheet.Element

/-!
# What a page takes from its items

An element takes from the items inside its rule their contents, their attributes and
their rules for elements, and nothing else.  So items can be changed or left out, and
another table of variables can be put in place of theirs: as long as every item gives
the same content and the same attribute as before, and rules for elements stay what
they are at every depth, all elements stay the same.
-/

section Found

variable {carry : Item Place → Option (Item Place')}

/-- What every item gives after it was carried over, a list of items gives as well. -/
theorem filterMap_carried
    {find : Item Place → Option α}
    {find' : Item Place' → Option α}
    (same : ∀ item, (carry item).bind find' = find item)
    (items : List (Item Place)) :
    (items.filterMap carry).filterMap find' = items.filterMap find := by
  rw [List.filterMap_filterMap]
  exact congrArg (fun found => items.filterMap found) (funext same)

variable
  {table table' : Variables}
  (content : ∀ item, (carry item).bind (contentOf? table') = contentOf? table item)

include content

theorem contentIn?_carried
    (items : List (Item Place)) :
    contentIn? table' (items.filterMap carry) = contentIn? table items := by
  unfold contentIn?
  rw [filterMap_carried content]

/-- An attribute rule only gives the content in it. -/
theorem attributeOf?_rule_carried
    (selector : Text)
    (children : List (Item Place))
    (place : Place)
    (place' : Place') :
    attributeOf? table' (.rule selector (children.filterMap carry) place') =
      attributeOf? table (.rule selector children place) := by
  have inner := contentIn?_carried content children
  simp only [attributeOf?, attributeValue?, inner]

end Found

/-- A rule that is not for an element stands for the same whatever is in it. -/
theorem ofItem?_rule_of_not_isElement
    {selector : Text}
    (notElement : Selector.isElement selector = false)
    (table table' : Variables)
    (children : List (Item Place))
    (children' : List (Item Place'))
    (place : Place)
    (place' : Place') :
    ofItem? table' (.rule selector children' place') =
      ofItem? table (.rule selector children place) := by
  unfold Selector.isElement at notElement
  simp only [ofItem?]
  cases stands : Selector.ofText selector with
  | element tag =>
      rw [stands] at notElement
      cases notElement
  | _ =>
      rfl

/--
What it means that items which are carried over, or left out, give to an element under
a second table what they gave under the first one.
-/
structure Conveys
    (table table' : Variables)
    (carry : Item Place → Option (Item Place')) : Prop where
  contents :
    ∀ item, (carry item).bind (contentOf? table') = contentOf? table item
  attributes :
    ∀ item, (carry item).bind (attributeOf? table') = attributeOf? table item
  /-- A rule for an element stays one, and what is in it is carried over in turn. -/
  rules :
    ∀ selector children place,
      Selector.isElement selector = true →
      ∃ place',
        carry (.rule selector children place) =
          some (.rule selector (children.filterMap carry) place')
  /-- No other item becomes a rule for an element. -/
  others :
    ∀ item item',
      isElementRule item = false → carry item = some item' → isElementRule item' = false

namespace Conveys

variable
  {table table' : Variables}
  {carry : Item Place → Option (Item Place')}
  (conveys : Conveys table table' carry)

include conveys

mutual

/-- A rule that is carried over stands for the same element. -/
theorem ofItem?
    (item : Item Place)
    (isRule : isElementRule item = true) :
    (carry item).bind (Element.ofItem? table') = Element.ofItem? table item := by
  cases item with
  | rule selector children place =>
      obtain ⟨place', carried⟩ := conveys.rules selector children place isRule
      have content := contentIn?_carried conveys.contents children
      have attributes :
          attributesIn table' (children.filterMap carry) = attributesIn table children :=
        filterMap_carried conveys.attributes children
      have nested := nestedIn children
      rw [carried, Option.bind_some]
      simp only [Element.ofItem?, content, attributes, nested]
  | _ =>
      cases isRule

theorem nestedIn
    (items : List (Item Place)) :
    Element.nestedIn table' (items.filterMap carry) = Element.nestedIn table items := by
  cases items with
  | nil =>
      rfl
  | cons item rest =>
      have others := nestedIn rest
      by_cases isRule : isElementRule item = true
      · have first := ofItem? item isRule
        cases item with
        | rule selector children place =>
            obtain ⟨place', carried⟩ := conveys.rules selector children place isRule
            have staysRule :
                isElementRule (.rule selector (children.filterMap carry) place') = true :=
              isRule
            rw [carried, Option.bind_some] at first
            rw [List.filterMap_cons_some carried, Element.nestedIn, Element.nestedIn,
              if_pos isRule, if_pos staysRule, first, others]
        | _ =>
            cases isRule
      · have notRule : isElementRule item = false := by
          simpa using isRule
        rw [Element.nestedIn, if_neg isRule, ← others]
        cases carried : carry item with
        | none =>
            rw [List.filterMap_cons_none carried]
        | some item' =>
            have stays := conveys.others item item' notRule carried
            rw [List.filterMap_cons_some carried, Element.nestedIn, stays,
              if_neg Bool.false_ne_true]

end

/-- Where rules for the document type stay what they are, all elements of a sheet do. -/
theorem ofItems
    (outermost :
      ∀ item, isElementRule item = false →
        (carry item).bind (Element.ofItem? table') = Element.ofItem? table item)
    (items : List (Item Place)) :
    Element.ofItems table' (items.filterMap carry) = Element.ofItems table items := by
  refine filterMap_carried (fun item => ?_) items
  by_cases isRule : isElementRule item = true
  · exact conveys.ofItem? item isRule
  · exact outermost item (by simpa using isRule)

end Conveys

end PageSheet.Element
