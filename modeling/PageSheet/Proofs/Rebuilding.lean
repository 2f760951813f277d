import PageSheet.Proofs.Places
import PageSheet.Proofs.Writing
namespace PageSheet

/-!
# Every page can be written

The items that an element is written as give its attributes, its content and its
children back, each from its own part of the items and in the same order.  They
define no variable, so that every value stands for itself.
-/

/-- Without variables every value stands for itself. -/
@[simp] theorem Variables.resolve_empty
    (raw : Text) :
    Variables.empty.resolve raw = raw := by
  unfold Variables.resolve
  split <;> rfl

namespace Element

theorem contentOf?_contentItem
    (content : Text) :
    contentOf? .empty (contentItem content) = some content := by
  have isContent : Property.ofText Property.contentText = .content :=
    rfl
  simp only [contentItem, contentOf?, isContent, Variables.resolve_empty]

theorem contentIn?_contentItem
    (content : Text) :
    contentIn? .empty [contentItem content] = some content := by
  unfold contentIn?
  rw [List.filterMap_cons_some (contentOf?_contentItem content)]
  rfl

end Element

/-- What it means that no declaration in an item defines a variable. -/
def Item.DefinesNothing (item : Item Place) : Prop :=
  ∀ stated ∈ item.declarations, Property.isCustom stated.property = false

theorem Item.definesNothing_rule_iff
    {selector : Text}
    {children : List (Item Place)}
    {place : Place} :
    (Item.rule selector children place).DefinesNothing ↔
      ∀ item ∈ children, item.DefinesNothing := by
  unfold DefinesNothing
  rw [declarations, declarationsIn_eq_flatMap, List.forall_mem_flatMap]

/-- A sheet that defines no variable has the empty table. -/
theorem Variables.ofItems_eq_empty
    {items : List (Item Place)}
    (nothing : ∀ item ∈ items, item.DefinesNothing) :
    Variables.ofItems items = .empty := by
  have none :
      ∀ stated ∈ Item.declarationsIn items,
        Property.isCustom stated.property = false := by
    rw [Item.declarationsIn_eq_flatMap, List.forall_mem_flatMap]
    exact nothing
  unfold Variables.ofItems
  generalize Item.declarationsIn items = declarations at none
  induction declarations with
  | nil =>
      rfl
  | cons stated rest inductionHypothesis =>
      obtain ⟨first, others⟩ := List.forall_mem_cons.mp none
      have skipped : Variables.empty.declare stated = .empty := by
        rw [declare, first, if_neg Bool.false_ne_true]
      rw [List.foldl_cons, skipped]
      exact inductionHypothesis others

theorem Element.definesNothing_contentItem
    (content : Text) :
    (contentItem content).DefinesNothing :=
  List.forall_mem_singleton.mpr rfl

namespace Attribute

variable {given : Attribute}

/-- A name behind the attribute marker stands for the attribute. -/
theorem ofText_marked
    {name : Text}
    (named : isName name = true) :
    Selector.ofText (marker :: name) = .attr name := by
  have solid : ∀ c ∈ name, Text.isWhiteSpace c = false := by
    simp only [isName, Bool.and_eq_true, List.all_eq_true] at named
    exact fun c member => (Lexeme.isPlain_of_name (named.2 c member)).solid
  have notRoot : marker :: name ≠ Selector.rootText := by
    intro isRoot
    cases isRoot
  have notTag : Selector.isElementName (marker :: name) = false :=
    rfl
  have marked : (marker :: name).head? = some marker :=
    rfl
  rw [Selector.ofText, if_neg notRoot, notTag, if_neg Bool.false_ne_true,
    if_pos marked, bareName_marked, Text.trim_of_solid solid]

theorem attributeOf?_item
    (writable : given.isWritable = true) :
    Element.attributeOf? .empty given.item = some given := by
  unfold isWritable at writable
  unfold item
  by_cases recognises : isRecognised given.name = true
  · have isAttribute := (property_of_isRecognised recognises).2.1
    rw [if_pos recognises]
    simp only [Element.attributeOf?, isAttribute, Variables.resolve_empty]
  · rw [if_neg recognises, Bool.and_eq_true, Bool.and_eq_true] at writable
    rw [if_neg recognises]
    obtain ⟨⟨named, inhabited⟩, -⟩ := writable
    have value :
        Element.attributeValue? .empty [Element.contentItem given.value] =
          some given.value := by
      rw [Element.attributeValue?, Element.contentIn?_contentItem]
      exact Option.filter_some_pos inhabited
    simp only [Element.attributeOf?, ofText_marked named, value, Option.map_some]

theorem contentOf?_item
    (given : Attribute) :
    Element.contentOf? .empty given.item = none := by
  unfold item
  split
  · next recognises =>
      have isAttribute := (property_of_isRecognised recognises).2.1
      simp only [Element.contentOf?, isAttribute]
  · rfl

theorem definesNothing_item
    (given : Attribute) :
    given.item.DefinesNothing := by
  unfold item
  split
  · next recognises =>
      exact List.forall_mem_singleton.mpr (property_of_isRecognised recognises).2.2
  · rw [Item.definesNothing_rule_iff]
    exact List.forall_mem_singleton.mpr (Element.definesNothing_contentItem given.value)

theorem isElementRule_item
    (given : Attribute) :
    Element.isElementRule given.item = false := by
  unfold item
  split
  · rfl
  · have notTag : ∀ name, Selector.isElement (marker :: name) = false := by
      intro name
      unfold Selector.isElement
      split
      · next stands =>
          cases (Selector.ofText_eq_element_iff.mp stands).1
      · rfl
    exact notTag given.name

end Attribute

namespace Element

variable {element : Element} {elements : List Element}

theorem isWritableIn_eq_all
    (elements : List Element) :
    isWritableIn elements = elements.all isWritable := by
  induction elements with
  | nil =>
      rfl
  | cons element rest inductionHypothesis =>
      rw [isWritableIn, inductionHypothesis, List.all_cons]

theorem attributeOf?_item
    (writable : element.isWritable = true) :
    attributeOf? .empty element.item = none := by
  have stands := ofText_tag writable
  obtain ⟨tag, attributes, content, children⟩ := element
  simp only [item, attributeOf?, stands]

theorem contentOf?_item
    (element : Element) :
    contentOf? .empty element.item = none := by
  cases element
  rfl

theorem isElementRule_item
    (writable : element.isWritable = true) :
    isElementRule element.item = true := by
  have stands := ofText_tag writable
  obtain ⟨tag, attributes, content, children⟩ := element
  simp only [item, isElementRule, Selector.isElement, stands]

section Inside

variable {attributes : List Attribute} {content : Option Text} {children : List Element}

/-- Attributes are read back from among the items of their element. -/
theorem attributesIn_inside
    (attributesWritable : attributes.all Attribute.isWritable = true)
    (childrenWritable : isWritableIn children = true) :
    attributesIn .empty
        (attributes.map Attribute.item ++ content.toList.map contentItem
          ++ itemsIn children) =
      attributes := by
  have named :
      (attributes.map Attribute.item).filterMap (attributeOf? .empty) = attributes := by
    induction attributes with
    | nil =>
        rfl
    | cons given rest inductionHypothesis =>
        rw [List.all_cons, Bool.and_eq_true] at attributesWritable
        have first := Attribute.attributeOf?_item attributesWritable.1
        rw [List.map_cons, List.filterMap_cons_some first,
          inductionHypothesis attributesWritable.2]
  have contents :
      (content.toList.map contentItem).filterMap (attributeOf? .empty) = [] := by
    cases content <;> rfl
  have nested : (itemsIn children).filterMap (attributeOf? .empty) = [] := by
    rw [itemsIn_eq_map, List.filterMap_eq_nil_iff, List.forall_mem_map]
    rw [isWritableIn_eq_all, List.all_eq_true] at childrenWritable
    exact fun child member => attributeOf?_item (childrenWritable child member)
  rw [attributesIn, List.filterMap_append, List.filterMap_append, named, contents, nested]
  simp

/-- The content is read back from among the items of its element. -/
theorem contentIn?_inside :
    contentIn? .empty
        (attributes.map Attribute.item ++ content.toList.map contentItem
          ++ itemsIn children) =
      content := by
  have named : (attributes.map Attribute.item).filterMap (contentOf? .empty) = [] := by
    rw [List.filterMap_eq_nil_iff, List.forall_mem_map]
    exact fun given _ => Attribute.contentOf?_item given
  have contents :
      (content.toList.map contentItem).filterMap (contentOf? .empty) =
        content.toList := by
    cases content with
    | none =>
        rfl
    | some text =>
        exact List.filterMap_cons_some (contentOf?_contentItem text)
  have nested : (itemsIn children).filterMap (contentOf? .empty) = [] := by
    rw [itemsIn_eq_map, List.filterMap_eq_nil_iff, List.forall_mem_map]
    exact fun child _ => contentOf?_item child
  rw [contentIn?, List.filterMap_append, List.filterMap_append, named, contents, nested]
  cases content <;> rfl

/-- Only the items of the children count as nested elements. -/
theorem nestedIn_inside :
    nestedIn .empty
        (attributes.map Attribute.item ++ content.toList.map contentItem
          ++ itemsIn children) =
      nestedIn .empty (itemsIn children) := by
  have named : (attributes.map Attribute.item).filter isElementRule = [] := by
    rw [List.filter_eq_nil_iff, List.forall_mem_map]
    intro given _ isRule
    rw [Attribute.isElementRule_item] at isRule
    cases isRule
  have contents : (content.toList.map contentItem).filter isElementRule = [] := by
    cases content <;> rfl
  rw [nestedIn_eq_filterMap, nestedIn_eq_filterMap, List.filter_append,
    List.filter_append, named, contents]
  rfl

/-- All of an element is read back from its items, but for its nested elements. -/
theorem ofItem?_rule
    {tag : Text}
    (stands : Selector.ofText tag = .element tag)
    (attributesWritable : attributes.all Attribute.isWritable = true)
    (childrenWritable : isWritableIn children = true) :
    ofItem? .empty
        (.rule tag
          (attributes.map Attribute.item ++ content.toList.map contentItem
            ++ itemsIn children) ()) =
      some ⟨tag, attributes, content, present (nestedIn .empty (itemsIn children))⟩ := by
  simp only [ofItem?, stands, contentIn?_inside, nestedIn_inside,
    attributesIn_inside attributesWritable childrenWritable]

end Inside

mutual

/-- The element of the item that an element is written as is that element. -/
theorem ofItem?_item
    (element : Element)
    (writable : element.isWritable = true) :
    ofItem? .empty element.item = some element := by
  have stands := ofText_tag writable
  match element with
  | ⟨tag, attributes, content, none⟩ =>
      obtain ⟨-, attributesWritable, -⟩ := isWritable_mk_iff.mp writable
      exact @ofItem?_rule attributes content [] tag stands attributesWritable rfl
  | ⟨tag, attributes, content, some children⟩ =>
      obtain ⟨-, attributesWritable, -, childrenWritable⟩ := isWritable_mk_iff.mp writable
      rw [areWritable, Bool.and_eq_true, Bool.not_eq_true',
        List.isEmpty_eq_false_iff] at childrenWritable
      have whole :=
        @ofItem?_rule attributes content children tag stands attributesWritable
          childrenWritable.2
      have shown : present children = some children := by
        cases children with
        | nil =>
            exact absurd rfl childrenWritable.1
        | cons child rest =>
            rfl
      rw [nestedIn_itemsIn children childrenWritable.2, shown] at whole
      exact whole

theorem nestedIn_itemsIn
    (elements : List Element)
    (writable : isWritableIn elements = true) :
    nestedIn .empty (itemsIn elements) = elements := by
  match elements with
  | [] =>
      rfl
  | element :: rest =>
      rw [isWritableIn, Bool.and_eq_true] at writable
      rw [itemsIn, nestedIn, if_pos (isElementRule_item writable.1),
        ofItem?_item element writable.1, nestedIn_itemsIn rest writable.2]
      rfl

end

mutual

/-- What an element is written as defines no variable. -/
theorem definesNothing_item
    (element : Element) :
    element.item.DefinesNothing := by
  match element with
  | ⟨tag, attributes, content, children⟩ =>
      have named : ∀ item ∈ attributes.map Attribute.item, item.DefinesNothing :=
        List.forall_mem_map.mpr fun given _ => given.definesNothing_item
      have contents : ∀ item ∈ content.toList.map contentItem, item.DefinesNothing :=
        List.forall_mem_map.mpr fun text _ => definesNothing_contentItem text
      have nested := definesNothing_childItems children
      rw [item, Item.definesNothing_rule_iff, List.forall_mem_append, List.forall_mem_append]
      exact ⟨⟨named, contents⟩, nested⟩

theorem definesNothing_childItems
    (children : Option (List Element)) :
    ∀ item ∈ childItems children, item.DefinesNothing := by
  match children with
  | none =>
      exact List.forall_mem_nil _
  | some elements =>
      exact definesNothing_itemsIn elements

theorem definesNothing_itemsIn
    (elements : List Element) :
    ∀ item ∈ itemsIn elements, item.DefinesNothing := by
  match elements with
  | [] =>
      exact List.forall_mem_nil _
  | element :: rest =>
      rw [itemsIn, List.forall_mem_cons]
      exact ⟨definesNothing_item element, definesNothing_itemsIn rest⟩

end

section Root

variable (root : IsRoot element)

include root

theorem ofItem?_rootItem :
    ofItem? .empty element.rootItem = some element := by
  rcases rootItem_cases root with ⟨rfl, shape⟩ | ⟨writable, shape⟩
  · rw [shape]
    rfl
  · rw [shape]
    exact ofItem?_item element writable

theorem definesNothing_rootItem :
    element.rootItem.DefinesNothing := by
  rcases rootItem_cases root with ⟨-, shape⟩ | ⟨-, shape⟩
  · rw [shape, Item.definesNothing_rule_iff]
    exact List.forall_mem_nil _
  · rw [shape]
    exact definesNothing_item element

end Root

end Element

namespace Page

/-- The page of the items that a page is written as is that page. -/
theorem ofItems_rootItems
    {page : Page}
    (roots : ∀ root ∈ page, Element.IsRoot root) :
    ofItems (page.map Element.rootItem) = page := by
  have table : Variables.ofItems (page.map Element.rootItem) = .empty :=
    Variables.ofItems_eq_empty
      (List.forall_mem_map.mpr fun root member =>
        Element.definesNothing_rootItem (roots root member))
  rw [ofItems, table, Element.ofItems]
  clear table
  induction page with
  | nil =>
      rfl
  | cons root rest inductionHypothesis =>
      obtain ⟨first, others⟩ := List.forall_mem_cons.mp roots
      rw [List.map_cons, List.filterMap_cons_some (Element.ofItem?_rootItem first),
        inductionHypothesis others]

/-- Every page can be written, and comes back unchanged. -/
theorem ofItems_written
    (page : Page)
    (roots : ∀ root ∈ page, Element.IsRoot root) :
    ∃ items,
      Item.ofSource (written page) = .ok items ∧ ofItems items = page ∧
        convert (written page) = .ok page.html := by
  obtain ⟨items, parsed, same⟩ := (spells_written roots).exists_ofSource
  have unchanged : ofItems items = page :=
    calc
      ofItems items = ofItems (Item.bare items) :=
        (ofItems_relocateIn (fun _ => ()) items).symm
      _ = ofItems (Item.bare (page.map Element.rootItem)) := by
        rw [same]
      _ = ofItems (page.map Element.rootItem) :=
        ofItems_relocateIn (fun _ => ()) (page.map Element.rootItem)
      _ = page :=
        ofItems_rootItems roots
  refine ⟨items, parsed, unchanged, ?_⟩
  rw [convert, parsed, Except.map, unchanged]

/-- A page with a document type and an element of every shape. -/
def mixed : Page :=
  [ Element.doctype,
    ⟨"html".toList,
      [ ⟨"data-x".toList, "var(--x)".toList⟩,
        ⟨"id".toList, []⟩,
        ⟨"content".toList, "a:b \\; ')'".toList⟩ ],
      some "\"hi;\" (a;b)".toList,
      some
        [ ⟨"br".toList, [], none, none⟩,
          ⟨"p".toList, [⟨"class".toList, "c d".toList⟩], some [],
            some [⟨"b1".toList, [], some "\\\\".toList, none⟩]⟩ ]⟩ ]

/-- References, escapes and empty values stay as they are at any depth. -/
theorem ofItems_written_mixed :
    (∀ root ∈ mixed, Element.IsRoot root) ∧
      ∃ items,
        Item.ofSource (written mixed) = .ok items ∧ ofItems items = mixed ∧
          convert (written mixed) = .ok mixed.html :=
  have roots : ∀ root ∈ mixed, Element.IsRoot root :=
    List.forall_mem_cons.mpr
      ⟨.inl rfl, List.forall_mem_singleton.mpr (.inr (by decide +kernel))⟩
  ⟨roots, ofItems_written mixed roots⟩

end Page

end PageSheet
