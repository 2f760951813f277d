import Mathlib.Data.List.Forall2
import PageSheet.Proofs.Outline
namespace PageSheet

/-!
# Elements and what they are built from

The visible rules of a sheet and the elements of its page pair off in document order, and
every element is built from what is right inside its own rule.  So what holds of all that
can be built from one rule holds of every element of a page, at any depth.
-/

theorem Element.ofItem?_of_isElementName
    (table : Variables)
    {selector : Text}
    (named : Selector.isElementName selector = true)
    (children : List (Item Place))
    (place : Place) :
    ofItem? table (.rule selector children place) =
      some ⟨selector, attributesIn table children, contentIn? table children,
        present (nestedIn table children)⟩ := by
  have stands : Selector.ofText selector = .element selector :=
    Selector.ofText_eq_element_iff.mpr ⟨named, rfl⟩
  simp only [ofItem?, stands]

namespace Outline

/-- What it means that an element is what a rule is built into. -/
inductive BuiltFrom (table : Variables) : Trail (Item Place) → Trail Element → Prop
  | doctype
      (index : Nat)
      (children : List (Item Place))
      (place : Place)
      (number : Nat) :
      BuiltFrom table [(index, .rule Selector.rootText children place)] [(number, .doctype)]
  | element
      {selector : Text}
      (named : Selector.isElementName selector = true)
      (index : Nat)
      (children : List (Item Place))
      (place : Place)
      (around : Trail (Item Place))
      (number : Nat)
      (around' : Trail Element) :
      BuiltFrom table ((index, .rule selector children place) :: around)
        ((number, ⟨selector, Element.attributesIn table children,
          Element.contentIn? table children,
          Element.present (Element.nestedIn table children)⟩) :: around')

theorem BuiltFrom.tags
    {table : Variables}
    {rule : Trail (Item Place)}
    {element : Trail Element}
    (built : BuiltFrom table rule element) :
    Tags rule element := by
  cases built with
  | doctype index children place number =>
      exact .doctype index children place number
  | element named =>
      exact .element ⟨_, _, _, _⟩ named (Element.present_ne _) ..

variable (table : Variables)

mutual

/-- The elements in that of a rule are built from the visible rules in the rule. -/
theorem builtFrom_ofItem?
    (item : Item Place)
    (named : item.namesElement = true)
    (around : Trail (Item Place))
    (enclosed : (around.all fun outer => outer.2.namesElement) = true)
    (index : Nat)
    (around' : Trail Element)
    (number : Nat) :
    ∃ element,
      Element.ofItem? table item = some element ∧
        List.Forall₂ (BuiltFrom table) ((item.trails around index).filter Item.isVisible)
          (element.trails around' number) := by
  have visible : Item.isVisible ((index, item) :: around) = true := by
    simp only [Item.isVisible, named, enclosed, Bool.and_self, Bool.or_true]
  rw [Item.trails_eq, List.filter_cons_of_pos visible]
  cases item with
  | rule selector children place =>
      refine ⟨_, Element.ofItem?_of_isElementName table named children place, ?_⟩
      rw [Element.trails_eq, Element.trailsInside_present]
      exact .cons (.element named index children place around number around')
        (builtFrom_nestedIn children _ (List.cons_ne_nil _ _)
          (by rw [List.all_cons, named, enclosed]; rfl) 0 _ 0)
  | _ =>
      cases named

theorem builtFrom_nestedIn
    (items : List (Item Place))
    (around : Trail (Item Place))
    (nested : around ≠ [])
    (enclosed : (around.all fun outer => outer.2.namesElement) = true)
    (index : Nat)
    (around' : Trail Element)
    (number : Nat) :
    List.Forall₂ (BuiltFrom table) ((Item.trailsIn around index items).filter Item.isVisible)
      (Element.trailsIn around' number (Element.nestedIn table items)) := by
  cases items with
  | nil =>
      exact .nil
  | cons item rest =>
      rw [Item.trailsIn, List.filter_append, Element.nestedIn, Element.isElementRule_eq]
      by_cases named : item.namesElement = true
      · obtain ⟨element, isBuilt, first⟩ :=
          builtFrom_ofItem? item named around enclosed index around' number
        rw [if_pos named, isBuilt]
        exact List.rel_append first
          (builtFrom_nestedIn rest around nested enclosed (index + 1) around' (number + 1))
      · have unnamed : item.namesElement = false := by
          simpa using named
        have hidden : Item.isVisible ((index, item) :: around) = false := by
          simp [Item.isVisible, unnamed, nested]
        rw [if_neg named, Item.filter_isVisible_of_hidden unnamed hidden]
        exact builtFrom_nestedIn rest around nested enclosed (index + 1) around' number

end

/-- The elements of a page are built one by one from the visible rules of its sheet. -/
theorem builtFrom_ofItems
    (items : List (Item Place))
    (index number : Nat) :
    List.Forall₂ (BuiltFrom table) ((Item.trailsIn [] index items).filter Item.isVisible)
      (Element.trailsIn [] number (Element.ofItems table items)) := by
  induction items generalizing index number with
  | nil =>
      exact .nil
  | cons item rest inductionHypothesis =>
      unfold Element.ofItems at inductionHypothesis ⊢
      rw [Item.trailsIn, List.filter_append]
      by_cases named : item.namesElement = true
      · obtain ⟨element, isBuilt, first⟩ :=
          builtFrom_ofItem? table item named [] rfl index [] number
        rw [List.filterMap_cons_some isBuilt]
        exact List.rel_append first (inductionHypothesis (index + 1) (number + 1))
      have unnamed : item.namesElement = false := by
        simpa using named
      by_cases isDoctypeRule : item.isDoctypeRule = true
      · obtain ⟨children, place, rfl⟩ := Item.eq_rule_of_isDoctypeRule isDoctypeRule
        rw [List.filterMap_cons_some (Element.ofItem?_rootText table children place),
          Item.trails_eq, List.filter_cons_of_pos rfl, Item.filter_isVisible_inside unnamed]
        exact .cons (.doctype index children place number)
          (inductionHypothesis (index + 1) (number + 1))
      · have hidden : Item.isVisible [(index, item)] = false := by
          simp [Item.isVisible, unnamed, isDoctypeRule]
        rw [List.filterMap_cons_none (Element.ofItem?_eq_none table unnamed isDoctypeRule),
          Item.filter_isVisible_of_hidden unnamed hidden]
        exact inductionHypothesis (index + 1) number

end Outline

end PageSheet
