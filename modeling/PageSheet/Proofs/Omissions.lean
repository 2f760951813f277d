import Mathlib.Data.List.Perm.Basic
import PageSheet.Proofs.Outline
import PageSheet.Proofs.Results
import PageSheet.Trace
namespace PageSheet

/-!
# Which omitted rules a trace tells of

A rule whose selector stands for nothing is left out of the page, be it an outermost rule
or one right inside a rule for an element.  A trace tells of it only in the first case: an
element looks among its items for rules for elements, and passes over the others without
a record.  So a trace tells of all omitted rules exactly when none of them stands inside
an element.
-/

/-- The selector of the rule that a record tells the omission of. -/
def Event.skipped? : Event → Option Text
  | .skipped selector => some selector
  | _ => none

/-- Whether a selector stands for nothing. -/
def Selector.isUnsupported (selector : Text) : Bool :=
  ofText selector = .unsupported

namespace Item

/-- The selector of a rule that stands for nothing. -/
def unsupported? : Item Place → Option Text
  | .rule selector _ _ =>
      if Selector.isUnsupported selector then some selector else none
  | _ => none

/-- The selector of a rule that stands neither for an element nor for the document type. -/
def unbuilt? : Item Place → Option Text
  | .rule selector _ _ =>
      match Selector.ofText selector with
      | .root => none
      | .element _ => none
      | .attr _ => some selector
      | .unsupported => some selector
  | _ => none

/--
The selector of an unsupported rule where a trail leads from, if the rule is an outermost
one or stands right inside a rule that is an element of the page.
-/
def omitted? : Trail (Item Place) → Option Text
  | [] => none
  | (_, item) :: around =>
      if around.all fun outer => outer.2.namesElement then item.unsupported? else none

/-- The selectors of all omitted rules of a sheet, one for each rule, in document order. -/
def omittedIn (items : List (Item Place)) : List Text :=
  (trailsIn [] 0 items).filterMap omitted?

/-- Whether a trail leads from an outermost item. -/
def isOutermost (trail : Trail (Item Place)) : Bool :=
  trail.length == 1

/-- The selectors of the omitted rules that stand inside an element. -/
def omittedInside (items : List (Item Place)) : List Text :=
  ((trailsIn [] 0 items).filter fun trail => !isOutermost trail).filterMap omitted?

/-- The outermost items that are omitted are those that are unsupported. -/
theorem filterMap_omitted?_outermost
    (items : List (Item Place))
    (index : Nat) :
    ((trailsIn [] index items).filter isOutermost).filterMap omitted? =
      items.filterMap unsupported? := by
  induction items generalizing index with
  | nil =>
      rfl
  | cons item rest inductionHypothesis =>
      -- Trails from the items inside have this item at their end, and one more in front.
      have inside :
          (trailsIn [(index, item)] 0 item.children).filter isOutermost = [] := by
        rw [List.filter_eq_nil_iff]
        intro trail member
        obtain ⟨front, number, inner, -, rfl⟩ :=
          (listing_children item [(index, item)]).exists_front member
        simp [isOutermost]
      have here :
          (([(index, item)] : Trail (Item Place)) :: []).filterMap omitted? =
            [item].filterMap unsupported? :=
        rfl
      rw [trailsIn, trails_eq, List.filter_append, List.filter_cons_of_pos rfl, inside,
        List.filterMap_append, here, inductionHypothesis, ← List.filterMap_append]
      rfl

/-- An omitted rule is an outermost one or stands inside an element. -/
theorem omittedIn_perm
    (items : List (Item Place)) :
    (items.filterMap unsupported? ++ omittedInside items).Perm (omittedIn items) := by
  rw [← filterMap_omitted?_outermost items 0, omittedInside, ← List.filterMap_append]
  exact (List.filter_append_perm isOutermost _).filterMap omitted?

/-- The omitted rules are the outermost ones only if none stands inside an element. -/
theorem perm_omittedIn_iff
    (items : List (Item Place)) :
    (items.filterMap unsupported?).Perm (omittedIn items) ↔ omittedInside items = [] := by
  constructor
  · intro same
    have lengths := (same.trans (omittedIn_perm items).symm).length_eq
    rw [List.length_append] at lengths
    exact List.eq_nil_of_length_eq_zero (by omega)
  · intro empty
    have parts := omittedIn_perm items
    rwa [empty, List.append_nil] at parts

theorem omittedInside_eq_nil_iff
    (items : List (Item Place)) :
    omittedInside items = [] ↔
      ∀ trail ∈ trailsIn [] 0 items,
        (omitted? trail).isSome = true → isOutermost trail = true := by
  rw [omittedInside, List.filterMap_eq_nil_iff]
  constructor
  · intro absent trail member omitted
    by_contra inside
    rw [absent trail (List.mem_filter.mpr ⟨member, by simp [inside]⟩)] at omitted
    cases omitted
  · intro outermost trail isInside
    obtain ⟨member, inside⟩ := List.mem_filter.mp isInside
    rw [← Option.not_isSome_iff_eq_none]
    intro omitted
    rw [outermost trail member omitted] at inside
    cases inside

end Item

namespace Trace

section Skipped

theorem filterMap_skipped?_ofDefinition
    (table : Variables)
    (name value : Text) :
    (ofDefinition table name value).filterMap Event.skipped? = [] := by
  unfold ofDefinition
  split <;> rfl

theorem filterMap_skipped?_ofDeclarations
    (table : Variables)
    (declarations : List (Declaration Place)) :
    (ofDeclarations table declarations).filterMap Event.skipped? = [] := by
  induction declarations generalizing table with
  | nil =>
      rfl
  | cons stated rest inductionHypothesis =>
      rw [ofDeclarations, List.filterMap_append, inductionHypothesis, List.append_nil]
      split
      · exact filterMap_skipped?_ofDefinition ..
      · rfl

mutual

theorem filterMap_skipped?_dropped
    (item : Item Place) :
    (dropped item).filterMap Event.skipped? = [] := by
  cases item with
  | declaration stated =>
      unfold dropped
      cases Property.ofText stated.property <;> rfl
  | rule selector children place =>
      unfold dropped
      cases Selector.ofText selector with
      | attr name =>
          exact filterMap_skipped?_droppedIn children
      | _ =>
          rfl
  | _ =>
      rfl

theorem filterMap_skipped?_droppedIn
    (items : List (Item Place)) :
    (droppedIn items).filterMap Event.skipped? = [] := by
  cases items with
  | nil =>
      rfl
  | cons item rest =>
      rw [droppedIn, List.filterMap_append, filterMap_skipped?_dropped item,
        filterMap_skipped?_droppedIn rest]
      rfl

end

mutual

/-- An item that is built, or looked at, tells of itself if its rule is not built. -/
theorem filterMap_skipped?_ofItem
    (item : Item Place) :
    (ofItem item).filterMap Event.skipped? = item.unbuilt?.toList := by
  cases item with
  | rule selector children place =>
      have inside : (droppedIn children ++ ofNested children).filterMap Event.skipped? = [] := by
        rw [List.filterMap_append, filterMap_skipped?_droppedIn,
          filterMap_skipped?_ofNested children]
        rfl
      simp only [ofItem, Item.unbuilt?]
      cases Selector.ofText selector with
      | element tag =>
          exact inside
      | _ =>
          rfl
  | _ =>
      rfl

/-- An element tells of no rule among its items. -/
theorem filterMap_skipped?_ofNested
    (items : List (Item Place)) :
    (ofNested items).filterMap Event.skipped? = [] := by
  cases items with
  | nil =>
      rfl
  | cons item rest =>
      rw [ofNested]
      split
      · next isRule =>
          have built : item.unbuilt? = none := by
            rw [Element.isElementRule_eq] at isRule
            cases item with
            | rule selector children place =>
                have stands : Selector.ofText selector = .element selector :=
                  Selector.ofText_eq_element_iff.mpr ⟨isRule, rfl⟩
                simp only [Item.unbuilt?, stands]
            | _ =>
                rfl
          rw [List.filterMap_append, filterMap_skipped?_ofItem item, built,
            filterMap_skipped?_ofNested rest]
          rfl
      · exact filterMap_skipped?_ofNested rest

end

/-- The rules that a trace tells of are the outermost ones that are not built, in order. -/
theorem filterMap_skipped?_ofItems
    (items : List (Item Place)) :
    (ofItems items).filterMap Event.skipped? = items.filterMap Item.unbuilt? := by
  have built :
      (items.flatMap ofItem).filterMap Event.skipped? = items.filterMap Item.unbuilt? := by
    induction items with
    | nil =>
        rfl
    | cons item rest inductionHypothesis =>
        rw [List.flatMap_cons, List.filterMap_append, filterMap_skipped?_ofItem,
          inductionHypothesis, List.filterMap_cons]
        cases item.unbuilt? <;> rfl
  rw [ofItems, ofVariables, List.filterMap_append, List.filterMap_append, List.filterMap_append,
    filterMap_skipped?_ofDeclarations, built]
  exact List.append_nil _

/-- Of the outermost rules that are not built the unsupported ones are omitted. -/
theorem filter_unbuilt?
    (items : List (Item Place)) :
    (items.filterMap Item.unbuilt?).filter Selector.isUnsupported =
      items.filterMap Item.unsupported? := by
  rw [List.filter_filterMap]
  refine List.filterMap_congr fun item _ => ?_
  cases item with
  | rule selector children place =>
      unfold Item.unbuilt? Item.unsupported? Selector.isUnsupported
      cases stands : Selector.ofText selector <;> simp [stands]
  | _ =>
      rfl

end Skipped

/--
What it means that a trace tells of the omitted rules of a sheet: it has one record for
each of them, and none for another rule whose selector stands for nothing.
-/
def TellsOmitted
    (items : List (Item Place))
    (trace : List Event) : Prop :=
  ((trace.filterMap Event.skipped?).filter Selector.isUnsupported).Perm (Item.omittedIn items)

/--
A trace tells of the outermost rules that are not built, one record each and in document
order, and so it tells of all omitted rules exactly when they are all outermost ones.
-/
theorem tellsOmitted_iff_outermost
    (items : List (Item Place)) :
    (ofItems items).filterMap Event.skipped? = items.filterMap Item.unbuilt? ∧
      (TellsOmitted items (ofItems items) ↔
        ∀ trail ∈ Item.trailsIn [] 0 items,
          (Item.omitted? trail).isSome = true → Item.isOutermost trail = true) := by
  refine ⟨filterMap_skipped?_ofItems items, ?_⟩
  rw [TellsOmitted, filterMap_skipped?_ofItems, filter_unbuilt?, Item.perm_omittedIn_iff]
  exact Item.omittedInside_eq_nil_iff items

/-- A rule that stands for nothing, right inside a rule for an element. -/
def omittedInside : Text :=
  "a\x7b.x\x7b\x7d\x7d".toList

/-- Nothing is told of a rule that an element passes over. -/
theorem exists_omission_untold :
    ¬ (∀ source items, Item.ofSource source = .ok items →
        TellsOmitted items (ofItems items)) ∧
      (Item.ofSource omittedInside).map Item.omittedIn = .ok [['.', 'x']] ∧
        (Item.ofSource omittedInside).map ofItems = .ok [.collected 0, .compiled 1] := by
  have omitted :
      (Item.ofSource omittedInside).map Item.omittedIn = .ok [['.', 'x']] := by
    decide +kernel
  have trace :
      (Item.ofSource omittedInside).map ofItems = .ok [.collected 0, .compiled 1] := by
    decide +kernel
  refine ⟨fun tells => ?_, omitted, trace⟩
  obtain ⟨items, parsed, omittedIn⟩ := exists_of_map_eq_ok omitted
  rw [parsed] at trace
  have told := tells omittedInside items parsed
  rw [TellsOmitted, omittedIn, Except.ok.inj trace] at told
  exact absurd told.length_eq (by decide)

end Trace

end PageSheet
