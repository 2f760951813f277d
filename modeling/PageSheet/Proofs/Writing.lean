import PageSheet.Page
import PageSheet.Proofs.Words
namespace PageSheet

/-!
# Writing pages

An element is written as a rule with its attributes, its content and its children
inside, in this order.  An attribute with a recognised name is written as a
declaration and any other one as a rule behind the attribute marker.

What is written is the spelling of one item for each element, so that parsing
gives these items back.
-/

namespace Attribute

/-- Whether an attribute can be written. -/
def isWritable (given : Attribute) : Bool :=
  if isRecognised given.name then
    Text.isClean given.value
  else
    isName given.name && !given.value.isEmpty && Text.isClean given.value

end Attribute

namespace Element

/-- The source text of a content. -/
def contentWritten (content : Text) : Text :=
  Property.contentText ++ [':'] ++ content ++ [';']

/-- The item that a content is written as. -/
def contentItem (content : Text) : Item Unit :=
  .declaration ⟨Property.contentText, content, ()⟩

end Element

namespace Attribute

/-- The source text of an attribute. -/
def written (given : Attribute) : Text :=
  if isRecognised given.name then
    given.name ++ [':'] ++ given.value ++ [';']
  else
    [marker] ++ given.name ++ ['\x7b'] ++ Element.contentWritten given.value ++ ['\x7d']

/-- The item that an attribute is written as. -/
def item (given : Attribute) : Item Unit :=
  if isRecognised given.name then
    .declaration ⟨given.name, given.value, ()⟩
  else
    .rule (marker :: given.name) [Element.contentItem given.value] ()

end Attribute

namespace Element

mutual

/-- Whether an element and everything in it can be written. -/
def isWritable : Element → Bool
  | ⟨tag, attributes, content, children⟩ =>
      Selector.isElementName tag && attributes.all Attribute.isWritable
        && content.all Text.isClean && areWritable children

/-- Whether the children of an element can be written. -/
def areWritable : Option (List Element) → Bool
  | none => true
  | some children => !children.isEmpty && isWritableIn children

/-- Whether all elements of a list can be written. -/
def isWritableIn : List Element → Bool
  | [] => true
  | element :: rest => element.isWritable && isWritableIn rest

end

mutual

/-- The source text of an element and of everything in it. -/
def written : Element → Text
  | ⟨tag, attributes, content, children⟩ =>
      tag ++ ['\x7b'] ++ attributes.flatMap Attribute.written
        ++ content.toList.flatMap contentWritten ++ childrenWritten children ++ ['\x7d']

/-- The source text of the children of an element. -/
def childrenWritten : Option (List Element) → Text
  | none => []
  | some children => writtenIn children

/-- The source text of a list of elements. -/
def writtenIn : List Element → Text
  | [] => []
  | element :: rest => element.written ++ writtenIn rest

end

mutual

/-- The item that an element is written as. -/
def item : Element → Item Unit
  | ⟨tag, attributes, content, children⟩ =>
      .rule tag
        (attributes.map Attribute.item ++ content.toList.map contentItem
          ++ childItems children) ()

/-- The items that the children of an element are written as. -/
def childItems : Option (List Element) → List (Item Unit)
  | none => []
  | some children => itemsIn children

/-- The items that a list of elements is written as. -/
def itemsIn : List Element → List (Item Unit)
  | [] => []
  | element :: rest => element.item :: itemsIn rest

end

/-- Whether an element can be written as an outermost one. -/
def IsRoot (element : Element) : Prop :=
  element = doctype ∨ element.isWritable = true

/-- The source text of an outermost element. -/
def rootWritten (element : Element) : Text :=
  if element.tag = doctype.tag then
    Selector.rootText ++ ['\x7b', '\x7d']
  else
    element.written

/-- The item that an outermost element is written as. -/
def rootItem (element : Element) : Item Unit :=
  if element.tag = doctype.tag then
    .rule Selector.rootText [] ()
  else
    element.item

end Element

/-- The source text of a page. -/
def Page.written (page : Page) : Text :=
  page.flatMap Element.rootWritten

namespace Element

theorem spelled_contentItem
    (content : Text) :
    (contentItem content).spelled = contentWritten content :=
  rfl

theorem isSpellable_contentItem
    (content : Text) :
    (contentItem content).isSpellable = Text.isClean content := by
  have isProperty : Text.isProperty Property.contentText = true := by
    decide +kernel
  rw [contentItem, Item.isSpellable, isProperty, Bool.true_and]

end Element

namespace Attribute

/-- The recognised names can be properties, and none is that of another kind. -/
theorem property_of_isRecognised
    {name : Text}
    (recognises : isRecognised name = true) :
    Text.isProperty name = true ∧ Property.ofText name = .attr ∧
      Property.isCustom name = false := by
  have member : name ∈ recognised := by
    simpa [isRecognised] using recognises
  have checked :
      ∀ listed ∈ recognised,
        Text.isProperty listed = true ∧ Property.ofText listed = .attr ∧
          Property.isCustom listed = false := by
    decide +kernel
  exact checked name member

variable {given : Attribute}

theorem spelled_item
    (given : Attribute) :
    given.item.spelled = given.written := by
  unfold item written
  split
  · rfl
  · simp [Item.spelled, Item.spelledIn, Element.spelled_contentItem]

theorem isSpellable_item
    (writable : given.isWritable = true) :
    given.item.isSpellable = true := by
  unfold isWritable at writable
  unfold item
  by_cases recognises : isRecognised given.name = true
  · rw [if_pos recognises] at writable ⊢
    rw [Item.isSpellable, Bool.and_eq_true]
    exact ⟨(property_of_isRecognised recognises).1, writable⟩
  · rw [if_neg recognises, Bool.and_eq_true, Bool.and_eq_true] at writable
    rw [if_neg recognises]
    simp [Item.isSpellable, Item.isSpellableIn, Element.isSpellable_contentItem,
      writable.2, Text.isSelector_of_isName writable.1.1]

end Attribute

namespace Element

variable {element : Element}

theorem isWritable_mk_iff
    {tag : Text}
    {attributes : List Attribute}
    {content : Option Text}
    {children : Option (List Element)} :
    isWritable ⟨tag, attributes, content, children⟩ = true ↔
      Selector.isElementName tag = true ∧
        attributes.all Attribute.isWritable = true ∧
          content.all Text.isClean = true ∧ areWritable children = true := by
  simp only [isWritable, Bool.and_eq_true, and_assoc]

theorem itemsIn_eq_map
    (elements : List Element) :
    itemsIn elements = elements.map item := by
  induction elements with
  | nil =>
      rfl
  | cons element rest inductionHypothesis =>
      rw [itemsIn, inductionHypothesis, List.map_cons]

mutual

/-- An element is written as its item is spelled. -/
theorem spelled_item
    (element : Element) :
    element.item.spelled = element.written := by
  match element with
  | ⟨tag, attributes, content, children⟩ =>
      have inner := spelledIn_childItems children
      rw [item, Item.spelled, Item.spelledIn_append, Item.spelledIn_append, inner,
        Item.spelledIn_eq_flatMap, Item.spelledIn_eq_flatMap, written]
      simp [List.flatMap_map, Attribute.spelled_item, spelled_contentItem]

theorem spelledIn_childItems
    (children : Option (List Element)) :
    Item.spelledIn (childItems children) = childrenWritten children := by
  match children with
  | none =>
      rfl
  | some elements =>
      exact spelledIn_itemsIn elements

theorem spelledIn_itemsIn
    (elements : List Element) :
    Item.spelledIn (itemsIn elements) = writtenIn elements := by
  match elements with
  | [] =>
      rfl
  | element :: rest =>
      rw [itemsIn, Item.spelledIn, spelled_item element, spelledIn_itemsIn rest,
        writtenIn]

end

mutual

/-- The item of an element that can be written can be spelled. -/
theorem isSpellable_item
    (element : Element)
    (writable : element.isWritable = true) :
    element.item.isSpellable = true := by
  match element with
  | ⟨tag, attributes, content, children⟩ =>
      obtain ⟨isTag, attributesWritable, clean, childrenWritable⟩ :=
        isWritable_mk_iff.mp writable
      have inner := isSpellableIn_childItems children childrenWritable
      have named : (attributes.map Attribute.item).all Item.isSpellable = true := by
        rw [List.all_map, List.all_eq_true]
        exact fun given member =>
          Attribute.isSpellable_item (List.all_eq_true.mp attributesWritable given member)
      have contents : (content.toList.map contentItem).all Item.isSpellable = true := by
        cases content with
        | none =>
            rfl
        | some text =>
            simpa [isSpellable_contentItem] using clean
      rw [item, Item.isSpellable, Text.isSelector_of_isElementName isTag,
        Item.isSpellableIn_append, Item.isSpellableIn_append, inner,
        Item.isSpellableIn_eq_all, Item.isSpellableIn_eq_all, named, contents]
      rfl

theorem isSpellableIn_childItems
    (children : Option (List Element))
    (writable : areWritable children = true) :
    Item.isSpellableIn (childItems children) = true := by
  match children with
  | none =>
      rfl
  | some elements =>
      rw [areWritable, Bool.and_eq_true] at writable
      exact isSpellableIn_itemsIn elements writable.2

theorem isSpellableIn_itemsIn
    (elements : List Element)
    (writable : isWritableIn elements = true) :
    Item.isSpellableIn (itemsIn elements) = true := by
  match elements with
  | [] =>
      rfl
  | element :: rest =>
      rw [isWritableIn, Bool.and_eq_true] at writable
      rw [itemsIn, Item.isSpellableIn, isSpellable_item element writable.1,
        isSpellableIn_itemsIn rest writable.2]
      rfl

end

/-- The tag of an element that can be written stands for an element. -/
theorem ofText_tag
    (writable : element.isWritable = true) :
    Selector.ofText element.tag = .element element.tag := by
  obtain ⟨tag, attributes, content, children⟩ := element
  have isTag := (isWritable_mk_iff.mp writable).1
  exact Selector.ofText_eq_element_iff.mpr ⟨isTag, rfl⟩

theorem spelled_rootItem
    (element : Element) :
    element.rootItem.spelled = element.rootWritten := by
  unfold rootItem rootWritten
  split
  · rfl
  · exact spelled_item element

section Root

variable (root : IsRoot element)

include root

/-- An element that can be written does not have the tag of the document type. -/
theorem rootItem_cases :
    element = doctype ∧ element.rootItem = .rule Selector.rootText [] () ∨
      element.isWritable = true ∧ element.rootItem = element.item := by
  rcases root with rfl | writable
  · exact .inl ⟨rfl, rfl⟩
  · have tagged : element.tag ≠ doctype.tag := by
      intro same
      have stands := ofText_tag writable
      rw [same] at stands
      exact absurd stands (by decide +kernel)
    exact .inr ⟨writable, if_neg tagged⟩

theorem isSpellable_rootItem :
    element.rootItem.isSpellable = true := by
  rcases rootItem_cases root with ⟨-, shape⟩ | ⟨writable, shape⟩
  · rw [shape]
    decide +kernel
  · rw [shape]
    exact isSpellable_item element writable

end Root

end Element

/-- What a page is written as spells one item for each of its elements. -/
theorem Page.spells_written
    {page : Page}
    (roots : ∀ root ∈ page, Element.IsRoot root) :
    Spells (written page) (Item.bare (page.map Element.rootItem)) := by
  have spelled : Item.spelledIn (page.map Element.rootItem) = written page := by
    rw [Item.spelledIn_eq_flatMap, List.flatMap_map, written]
    exact congrArg page.flatMap (funext Element.spelled_rootItem)
  have spellable : Item.isSpellableIn (page.map Element.rootItem) = true := by
    rw [Item.isSpellableIn_eq_all, List.all_map, List.all_eq_true]
    exact fun root member => Element.isSpellable_rootItem (roots root member)
  rw [← spelled]
  exact Item.spells_spelledIn _ spellable

end PageSheet
