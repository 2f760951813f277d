import PageSheet.Element.Basic
import PageSheet.Selector
import PageSheet.Variables
namespace PageSheet.Element

/-!
# Building elements from items

A rule whose selector names an element becomes that element.  The items right
inside the rule give its attributes and its content, and those of them that are
rules for elements in turn become its children.  The rule for the document type
is only looked at among the items of the sheet itself.

Values are resolved before they are used.  Of several contents the last one
counts, and attributes keep the order of their items.
-/

/-- The content that an item gives to the element around it. -/
def contentOf?
    (table : Variables) :
    Item Place → Option Text
  | .declaration stated =>
      match Property.ofText stated.property with
      | .content => some (table.resolve stated.value)
      | _ => none
  | _ => none

/-- The content that a list of items gives to the element around it. -/
def contentIn?
    (table : Variables)
    (items : List (Item Place)) :
    Option Text :=
  (items.filterMap (contentOf? table)).getLast?

/-- The value that the items of an attribute rule give to the attribute. -/
def attributeValue?
    (table : Variables)
    (items : List (Item Place)) :
    Option Text :=
  (contentIn? table items).filter fun value => !value.isEmpty

/-- The attribute that an item gives to the element around it. -/
def attributeOf?
    (table : Variables) :
    Item Place → Option Attribute
  | .declaration stated =>
      match Property.ofText stated.property with
      | .attr => some ⟨stated.property, table.resolve stated.value⟩
      | _ => none
  | .rule selector children _ =>
      match Selector.ofText selector with
      | .attr name =>
          (attributeValue? table children).map fun value => ⟨name, value⟩
      | _ => none
  | _ => none

/-- The attributes that a list of items gives to the element around it. -/
def attributesIn
    (table : Variables)
    (items : List (Item Place)) :
    List Attribute :=
  items.filterMap (attributeOf? table)

/-- A list of children, where no children count as absent ones. -/
def present : List Element → Option (List Element)
  | [] => none
  | child :: rest => some (child :: rest)

/-- Whether an item is a rule for an element. -/
def isElementRule : Item Place → Bool
  | .rule selector _ _ => Selector.isElement selector
  | _ => false

mutual

/-- The element that an item stands for. -/
def ofItem?
    (table : Variables) :
    Item Place → Option Element
  | .rule selector children _ =>
      match Selector.ofText selector with
      | .root => some doctype
      | .element tag =>
          some {
            tag := tag
            attributes := attributesIn table children
            content := contentIn? table children
            children := present (nestedIn table children)
          }
      | .attr _ => none
      | .unsupported => none
  | .declaration _ => none
  | .atStatement .. => none
  | .atBlock .. => none
  | .comment _ => none

/-- The elements that the items of a rule stand for. -/
def nestedIn
    (table : Variables) :
    List (Item Place) → List Element
  | [] => []
  | item :: rest =>
      if isElementRule item then
        (ofItem? table item).toList ++ nestedIn table rest
      else
        nestedIn table rest

end

/-- The elements that the items of a sheet stand for, in document order. -/
def ofItems
    (table : Variables)
    (items : List (Item Place)) :
    List Element :=
  items.filterMap (ofItem? table)

/-- The children of an element are the elements of its rules for elements. -/
theorem nestedIn_eq_filterMap
    (table : Variables)
    (items : List (Item Place)) :
    nestedIn table items =
      (items.filter isElementRule).filterMap (ofItem? table) := by
  induction items with
  | nil =>
      rfl
  | cons item rest inductionHypothesis =>
      rw [nestedIn, inductionHypothesis]
      by_cases isRule : isElementRule item = true
      · rw [if_pos isRule, List.filter_cons_of_pos isRule, List.filterMap_cons]
        cases ofItem? table item <;> rfl
      · rw [if_neg isRule, List.filter_cons_of_neg isRule]

end PageSheet.Element
