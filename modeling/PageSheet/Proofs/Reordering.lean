import Mathlib.Data.List.Forall2
import PageSheet.Element.Build
namespace PageSheet

/-!
# The order of items

What is in a rule for an element plays one of three parts in the element: it gives
an attribute, it gives the content, or it is the rule for a child.  Only items of the
same part have to keep their order.  In a rule for an attribute only the contents have
to, and in what does not show on the page nothing has to.
-/

/-- The parts that items can play in an element. -/
inductive Part where
  | attribute
  | content
  | child
  deriving Repr, DecidableEq

namespace Item

/-- The part that an item plays in the element around it, if it plays any. -/
def part? : Item Place → Option Part
  | .rule selector _ _ =>
      match Selector.ofText selector with
      | .root => none
      | .element _ => some .child
      | .attr _ => some .attribute
      | .unsupported => none
  | .declaration stated =>
      match Property.ofText stated.property with
      | .content => some .content
      | .attr => some .attribute
      | .custom => none
      | .style => none
  | .atStatement .. => none
  | .atBlock .. => none
  | .comment _ => none

/-- The items of a list that play a given part. -/
def playing
    (part : Part)
    (items : List (Item Place)) :
    List (Item Place) :=
  items.filter fun item => item.part? = some part

/-- What it means that items are permuted and those of some parts keep their order. -/
structure Permuted
    (kept : List Part)
    (items items' : List (Item Place)) : Prop where
  perm : items.Perm items'
  order : ∀ part ∈ kept, playing part items = playing part items'

end Item

/-- The parts that have to keep their order in a rule with a given selector. -/
def Selector.kept : Selector → List Part
  | .root => []
  | .element _ => [.attribute, .content, .child]
  | .attr _ => [.content]
  | .unsupported => []

namespace Item

/--
What it means that the items at every depth are permuted: those in a rule while the
order that counts in it is kept, and those in an at-rule in any way.
-/
inductive Reordered : Item Place → Item Place → Prop
  | rule
      {selector : Text}
      {children carried children' : List (Item Place)}
      {place : Place}
      (inside : List.Forall₂ Reordered children carried)
      (permuted : Permuted (Selector.ofText selector).kept carried children') :
      Reordered (.rule selector children place) (.rule selector children' place)
  | declaration (stated : Declaration Place) :
      Reordered (.declaration stated) (.declaration stated)
  | atStatement (name params : Text) (place : Place) :
      Reordered (.atStatement name params place) (.atStatement name params place)
  | atBlock
      {name params : Text}
      {children carried children' : List (Item Place)}
      {place : Place}
      (inside : List.Forall₂ Reordered children carried)
      (permuted : Permuted [] carried children') :
      Reordered (.atBlock name params children place) (.atBlock name params children' place)
  | comment (text : Text) :
      Reordered (.comment text) (.comment text)

theorem Permuted.refl
    (kept : List Part)
    (items : List (Item Place)) :
    Permuted kept items items :=
  ⟨.refl items, fun _ _ => rfl⟩

mutual

theorem Reordered.refl (item : Item Place) : Reordered item item := by
  cases item with
  | rule selector children place =>
      exact .rule (reorderedIn_refl children) (.refl _ children)
  | declaration stated =>
      exact .declaration stated
  | atStatement name params place =>
      exact .atStatement name params place
  | atBlock name params children place =>
      exact .atBlock (reorderedIn_refl children) (.refl [] children)
  | comment text =>
      exact .comment text

theorem reorderedIn_refl
    (items : List (Item Place)) :
    List.Forall₂ Reordered items items := by
  cases items with
  | nil =>
      exact .nil
  | cons item rest =>
      exact .cons (Reordered.refl item) (reorderedIn_refl rest)

end

end Item

namespace Element

variable {table : Variables} {item item' : Item Place} {items items' : List (Item Place)}

/-- What is found in items is found in those that play a part, if no others give it. -/
theorem filterMap_playing
    {find : Item Place → Option α}
    {part : Part}
    (only : ∀ item, item.part? ≠ some part → find item = none)
    (items : List (Item Place)) :
    (Item.playing part items).filterMap find = items.filterMap find := by
  unfold Item.playing
  rw [List.filterMap_filter]
  refine congrArg (fun found => items.filterMap found) (funext fun item => ?_)
  by_cases plays : item.part? = some part
  · rw [decide_eq_true plays, if_pos rfl]
  · rw [decide_eq_false plays, if_neg Bool.false_ne_true, only item plays]

theorem contentOf?_eq_none
    (table : Variables)
    (item : Item Place)
    (other : item.part? ≠ some .content) :
    contentOf? table item = none := by
  cases item with
  | declaration stated =>
      cases kind : Property.ofText stated.property <;> simp_all [Item.part?, contentOf?]
  | _ =>
      rfl

theorem attributeOf?_eq_none
    (table : Variables)
    (item : Item Place)
    (other : item.part? ≠ some .attribute) :
    attributeOf? table item = none := by
  cases item with
  | declaration stated =>
      cases kind : Property.ofText stated.property <;> simp_all [Item.part?, attributeOf?]
  | rule selector children place =>
      cases stands : Selector.ofText selector <;> simp_all [Item.part?, attributeOf?]
  | _ =>
      rfl

/-- Rules for elements are what plays the part of a child. -/
theorem isElementRule_eq_child
    (item : Item Place) :
    isElementRule item = decide (item.part? = some .child) := by
  cases item with
  | rule selector children place =>
      cases stands : Selector.ofText selector <;>
        simp [isElementRule, Selector.isElement, Item.part?, stands]
  | declaration stated =>
      cases kind : Property.ofText stated.property <;>
        simp [isElementRule, Item.part?, kind]
  | _ =>
      rfl

theorem contentIn?_eq_of_playing
    (table : Variables)
    (same : Item.playing .content items = Item.playing .content items') :
    contentIn? table items = contentIn? table items' := by
  unfold contentIn?
  rw [← filterMap_playing (contentOf?_eq_none table) items, same,
    filterMap_playing (contentOf?_eq_none table) items']

theorem attributesIn_eq_of_playing
    (table : Variables)
    (same : Item.playing .attribute items = Item.playing .attribute items') :
    attributesIn table items = attributesIn table items' := by
  unfold attributesIn
  rw [← filterMap_playing (attributeOf?_eq_none table) items, same,
    filterMap_playing (attributeOf?_eq_none table) items']

theorem nestedIn_eq_of_playing
    (table : Variables)
    (same : Item.playing .child items = Item.playing .child items') :
    nestedIn table items = nestedIn table items' := by
  have isPlaying :
      ∀ items : List (Item Place), items.filter isElementRule = Item.playing .child items :=
    fun items => congrArg (fun test => items.filter test) (funext isElementRule_eq_child)
  rw [nestedIn_eq_filterMap, nestedIn_eq_filterMap, isPlaying, isPlaying, same]

/-- Items that give the same one by one give the same as a list. -/
theorem filterMap_eq_of_forall₂
    {relation : Item Place → Item Place → Prop}
    {find : Item Place → Option α}
    (same : ∀ item item', relation item item' → find item = find item')
    (related : List.Forall₂ relation items items') :
    items.filterMap find = items'.filterMap find := by
  induction related with
  | nil =>
      rfl
  | cons first _ inductionHypothesis =>
      rw [List.filterMap_cons, List.filterMap_cons, same _ _ first, inductionHypothesis]

theorem contentOf?_eq_of_reordered
    (table : Variables)
    (item item' : Item Place)
    (reordered : Item.Reordered item item') :
    contentOf? table item = contentOf? table item' := by
  cases reordered <;> rfl

theorem contentIn?_eq_of_reordered
    (table : Variables)
    (reordered : List.Forall₂ Item.Reordered items items') :
    contentIn? table items = contentIn? table items' :=
  congrArg List.getLast?
    (filterMap_eq_of_forall₂ (contentOf?_eq_of_reordered table) reordered)

theorem attributeOf?_eq_of_reordered
    (table : Variables)
    (item item' : Item Place)
    (reordered : Item.Reordered item item') :
    attributeOf? table item = attributeOf? table item' := by
  cases reordered with
  | @rule selector children carried children' place inside permuted =>
      cases stands : Selector.ofText selector with
      | attr name =>
          have order : Item.playing .content carried = Item.playing .content children' :=
            permuted.order .content (by rw [stands]; exact List.mem_cons_self)
          have contents : contentIn? table children = contentIn? table children' :=
            (contentIn?_eq_of_reordered table inside).trans
              (contentIn?_eq_of_playing table order)
          simp only [attributeOf?, attributeValue?, contents]
      | _ =>
          simp only [attributeOf?, stands]
  | _ =>
      rfl

theorem isElementRule_eq_of_reordered
    (reordered : Item.Reordered item item') :
    isElementRule item = isElementRule item' := by
  cases reordered <;> rfl

mutual

/-- Items that are reordered at every depth stand for the same element. -/
theorem ofItem?_reordered
    (table : Variables)
    (item : Item Place)
    {item' : Item Place}
    (reordered : Item.Reordered item item') :
    ofItem? table item = ofItem? table item' := by
  cases item with
  | rule selector children place =>
      cases reordered with
      | @rule _ _ carried children' _ inside permuted =>
          unfold ofItem?
          cases stands : Selector.ofText selector with
          | element tag =>
              rw [stands] at permuted
              have attributes : attributesIn table children = attributesIn table children' :=
                (filterMap_eq_of_forall₂ (attributeOf?_eq_of_reordered table) inside).trans
                  (attributesIn_eq_of_playing table
                    (permuted.order .attribute (by simp [Selector.kept])))
              have content : contentIn? table children = contentIn? table children' :=
                (contentIn?_eq_of_reordered table inside).trans
                  (contentIn?_eq_of_playing table (permuted.order .content (by simp [Selector.kept])))
              have nested : nestedIn table children = nestedIn table children' :=
                (nestedIn_reordered table children inside).trans
                  (nestedIn_eq_of_playing table (permuted.order .child (by simp [Selector.kept])))
              simp only [attributes, content, nested]
          | _ =>
              rfl
  | _ =>
      cases reordered
      rfl

theorem nestedIn_reordered
    (table : Variables)
    (items : List (Item Place))
    {items' : List (Item Place)}
    (reordered : List.Forall₂ Item.Reordered items items') :
    nestedIn table items = nestedIn table items' := by
  cases reordered with
  | nil =>
      rfl
  | @cons item item' rest rest' first others =>
      rw [nestedIn, nestedIn, isElementRule_eq_of_reordered first,
        ofItem?_reordered table item first, nestedIn_reordered table rest others]

end

/--
Under a given table the items in a rule for an element can be permuted as long as
attributes, contents and rules for elements keep their order among themselves, and the
same holds for such permutations at every depth at once.
-/
theorem ofItem?_eq_of_permuted
    (table : Variables) :
    (∀ (selector : Text) (children children' : List (Item Place)) (place : Place),
        Selector.isElementName selector = true →
          Item.Permuted [.attribute, .content, .child] children children' →
            ofItem? table (.rule selector children place) =
              ofItem? table (.rule selector children' place)) ∧
      ∀ item item' : Item Place,
        Item.Reordered item item' → ofItem? table item = ofItem? table item' := by
  refine ⟨fun selector children children' place named permuted => ?_,
    fun item item' reordered => ofItem?_reordered table item reordered⟩
  have stands : Selector.ofText selector = .element selector :=
    Selector.ofText_eq_element_iff.mpr ⟨named, rfl⟩
  exact ofItem?_reordered table _
    (.rule (Item.reorderedIn_refl children) (by rw [stands]; exact permuted))

/-- A rule for an attribute with something in front of its content. -/
def titleLast : Item Unit :=
  .rule (Attribute.marker :: "title".toList)
    [ .declaration ⟨"id".toList, ['n'], ()⟩,
      .declaration ⟨Property.contentText, ['t'], ()⟩ ] ()

/-- The same rule the other way round. -/
def titleFirst : Item Unit :=
  .rule (Attribute.marker :: "title".toList)
    [ .declaration ⟨Property.contentText, ['t'], ()⟩,
      .declaration ⟨"id".toList, ['n'], ()⟩ ] ()

/-- Attributes and a child. -/
def shown (title : Item Unit) : List (Item Unit) :=
  [.declaration ⟨"id".toList, ['x'], ()⟩, title, .rule ['b'] [] ()]

/-- Two contents with a comment between them. -/
def told : List (Item Unit) :=
  [ .declaration ⟨Property.contentText, ['c'], ()⟩,
    .comment [],
    .declaration ⟨Property.contentText, ['d'], ()⟩ ]

/-- Contents can go before attributes, with or without a change in a rule for one of them. -/
theorem ofItem?_eq_of_permuted_contentsFirst :
    (Item.Permuted [.attribute, .content, .child]
        (shown titleLast ++ told) (told ++ shown titleLast) ∧
      ofItem? .empty (.rule ['a'] (shown titleLast ++ told) ()) =
        ofItem? .empty (.rule ['a'] (told ++ shown titleLast) ())) ∧
    (Item.Reordered (.rule ['a'] (shown titleLast ++ told) ())
        (.rule ['a'] (told ++ shown titleFirst) ()) ∧
      ofItem? .empty (.rule ['a'] (shown titleLast ++ told) ()) =
        ofItem? .empty (.rule ['a'] (told ++ shown titleFirst) ())) := by
  have permuted :
      ∀ title ∈ [titleLast, titleFirst],
        Item.Permuted [.attribute, .content, .child]
          (shown title ++ told) (told ++ shown title) := by
    intro title member
    refine ⟨List.perm_append_comm, fun part _ => ?_⟩
    simp only [List.mem_cons, List.not_mem_nil, or_false] at member
    rcases member with rfl | rfl <;> cases part <;> rfl
  have title : Item.Reordered titleLast titleFirst :=
    .rule (Item.reorderedIn_refl _)
      ⟨List.Perm.swap .., fun part member => by
        cases List.mem_singleton.mp member
        rfl⟩
  have reordered :
      Item.Reordered (.rule ['a'] (shown titleLast ++ told) ())
        (.rule ['a'] (told ++ shown titleFirst) ()) :=
    .rule
      (.cons (.refl _) (.cons title (.cons (.refl _) (Item.reorderedIn_refl told))))
      (permuted titleFirst (by simp))
  have first := permuted titleLast List.mem_cons_self
  exact ⟨⟨first, (ofItem?_eq_of_permuted .empty).1 _ _ _ () (by decide) first⟩,
    reordered, (ofItem?_eq_of_permuted .empty).2 _ _ reordered⟩

end Element

end PageSheet
