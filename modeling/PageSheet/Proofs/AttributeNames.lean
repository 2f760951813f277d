import PageSheet.Proofs.Building
import PageSheet.Proofs.Legibility
namespace PageSheet

/-!
# Names of attributes on a page

An attribute has its name from an item right inside the rule of its element.  The name
that a declaration gives is whole: something is in it, and no marker stands at its front.
A rule for an attribute gives what is behind the marker of its selector, which may be
nothing or have another marker at its front.  In markup names lose one marker, so that
only those that start with one are not printed as they are.
-/

/-- Whether something is in a name and no marker stands at its front. -/
def Attribute.isWhole (name : Text) : Bool :=
  !name.isEmpty && name.head? ≠ some marker

/-- What it means that an item gives an attribute of the element around it its name. -/
inductive Item.Names : Item Place → Text → Prop
  | declaration
      (stated : Declaration Place)
      (recognises : Attribute.isRecognised stated.property = true)
      (whole : Attribute.isWhole stated.property = true) :
      Names (.declaration stated) stated.property
  /-- Behind its marker the selector is trimmed, and nothing else is asked of it. -/
  | rule
      (rest : Text)
      (whole :
        Attribute.isWhole (Text.trim rest) =
          (rest.find? fun c => !Text.isWhiteSpace c).any fun c => c ≠ Attribute.marker)
      (children : List (Item Place))
      (place : Place) :
      Names (.rule (Attribute.marker :: rest) children place) (Text.trim rest)

namespace Attribute

theorem isWhole_of_isRecognised
    {name : Text}
    (recognises : isRecognised name = true) :
    isWhole name = true := by
  have member : name ∈ recognised := by
    simpa [isRecognised] using recognises
  have checked : ∀ listed ∈ recognised, isWhole listed = true := by
    decide +kernel
  exact checked name member

/-- A trimmed name is whole if what comes first in it after white space is no marker. -/
theorem isWhole_trim
    (text : Text) :
    isWhole (Text.trim text) =
      (text.find? fun c => !Text.isWhiteSpace c).any fun c => c ≠ marker := by
  rw [← Text.head?_trim]
  cases Text.trim text with
  | nil =>
      rfl
  | cons c rest =>
      simp [isWhole]

end Attribute

namespace Property

theorem isRecognised_of_ofText
    {text : Text}
    (isAttribute : ofText text = .attr) :
    Attribute.isRecognised text = true := by
  unfold ofText at isAttribute
  split at isAttribute
  · cases isAttribute
  split at isAttribute
  · assumption
  split at isAttribute <;> cases isAttribute

end Property

namespace Selector

/-- What stands for an attribute has the marker, and behind it the name. -/
theorem exists_of_ofText_eq_attr
    {text name : Text}
    (stands : ofText text = .attr name) :
    ∃ rest, text = Attribute.marker :: rest ∧ name = Text.trim rest := by
  unfold ofText at stands
  split at stands
  · cases stands
  split at stands
  · cases stands
  split at stands
  · next marked =>
      obtain ⟨rest, rfl⟩ := List.head?_eq_some_iff.mp marked
      rw [Attribute.bareName_marked] at stands
      cases stands
      exact ⟨rest, rfl, rfl⟩
  · cases stands

end Selector

namespace Element

/-- Every attribute is named by one of the items that it is taken from. -/
theorem exists_names_of_mem_attributesIn
    {table : Variables}
    {items : List (Item Place)}
    {given : Attribute}
    (member : given ∈ attributesIn table items) :
    ∃ item ∈ items, item.Names given.name := by
  obtain ⟨item, isItem, gives⟩ := List.mem_filterMap.mp member
  refine ⟨item, isItem, ?_⟩
  cases item with
  | declaration stated =>
      simp only [attributeOf?] at gives
      split at gives
      · next isAttribute =>
          have recognises := Property.isRecognised_of_ofText isAttribute
          cases gives
          exact .declaration stated recognises (Attribute.isWhole_of_isRecognised recognises)
      · cases gives
  | rule selector children place =>
      simp only [attributeOf?] at gives
      split at gives
      · next name stands =>
          obtain ⟨rest, rfl, rfl⟩ := Selector.exists_of_ofText_eq_attr stands
          obtain ⟨value, -, rfl⟩ := Option.map_eq_some_iff.mp gives
          exact .rule rest (Attribute.isWhole_trim rest) children place
      · cases gives
  | _ =>
      cases gives

end Element

namespace Outline

/--
What it means that a rule and an element belong together, and that every attribute of the
element is named by an item right inside the rule.
-/
inductive NamedInRule : Trail (Item Place) → Trail Element → Prop
  | mk
      {index : Nat}
      {item : Item Place}
      {around : Trail (Item Place)}
      {number : Nat}
      {element : Element}
      {around' : Trail Element}
      (tags : Tags ((index, item) :: around) ((number, element) :: around'))
      (names :
        ∀ given ∈ element.attributes, ∃ inner ∈ item.children, inner.Names given.name) :
      NamedInRule ((index, item) :: around) ((number, element) :: around')

theorem NamedInRule.of_builtFrom
    {table : Variables}
    {rule : Trail (Item Place)}
    {element : Trail Element}
    (built : BuiltFrom table rule element) :
    NamedInRule rule element := by
  have tags := built.tags
  cases built with
  | doctype =>
      exact ⟨tags, List.forall_mem_nil _⟩
  | element =>
      exact ⟨tags, fun given member => Element.exists_names_of_mem_attributesIn member⟩

end Outline

namespace Element

/-- An element on a page is the document type or has a name for its tag. -/
theorem tag_of_mem_trails
    {items : List (Item Place)}
    {entry : Nat × Element}
    {outer : Trail Element}
    (member : entry :: outer ∈ (Page.ofItems items).trails) :
    entry.2 = doctype ∨ Selector.isElementName entry.2.tag = true := by
  obtain ⟨rule, tags⟩ :=
    (Outline.inStep_ofItems (Variables.ofItems items) items 0 0).exists_tags member
  cases tags with
  | doctype =>
      exact .inl rfl
  | element _ named =>
      exact .inr named

/-- The markup of children is part of that of their element, unless it closes itself. -/
theorem htmlIn_isInfix_html
    {tag : Text}
    (named : Selector.isElementName tag = true)
    (notVoid : isVoid tag = false)
    (attributes : List Attribute)
    (content : Option Text)
    (children : List Element) :
    htmlIn children <:+: html ⟨tag, attributes, content, some children⟩ := by
  rw [html_of_isElementName named, htmlBehind, notVoid, if_neg Bool.false_ne_true]
  refine
    ⟨'<' :: (tag ++ (attributes.flatMap attributeHtml ++
        '>' :: (contentHtml content ++ linkHtml tag))),
      ['<', '/'] ++ tag ++ ['>'], ?_⟩
  simp [childrenHtml]

section Printed

variable {entry : Nat × Element} {outer : Trail Element}

mutual

/-- An element in another one is printed with it, unless an element around it closes itself. -/
theorem html_isInfix_html
    (element : Element)
    (around : Trail Element)
    (index : Nat)
    (tagged :
      ∀ entry outer, entry :: outer ∈ element.trails around index →
        entry.2 = doctype ∨ Selector.isElementName entry.2.tag = true)
    (member : entry :: outer ∈ element.trails around index)
    (shown : ∀ enclosing ∈ outer, isVoid enclosing.2.tag = false) :
    entry.2.html <:+: element.html := by
  match element with
  | ⟨tag, attributes, content, none⟩ =>
      cases List.mem_singleton.mp member
      exact List.infix_rfl
  | ⟨tag, attributes, content, some children⟩ =>
      rcases List.mem_cons.mp member with isSelf | inside
      · cases isSelf
        exact List.infix_rfl
      · have encloses : (index, ⟨tag, attributes, content, some children⟩) ∈ outer := by
          obtain ⟨front, number, child, -, same⟩ :=
            (listing_trailsIn children _ 0).exists_front inside
          cases front <;> cases same <;> simp
        rcases tagged _ _ List.mem_cons_self with isDoctype | named
        · cases isDoctype
          cases inside
        · exact (html_isInfix_htmlIn children _ 0
            (fun entry outer inner => tagged entry outer (List.mem_cons_of_mem _ inner))
            inside shown).trans
              (htmlIn_isInfix_html named (shown _ encloses) attributes content children)

theorem html_isInfix_htmlIn
    (elements : List Element)
    (around : Trail Element)
    (index : Nat)
    (tagged :
      ∀ entry outer, entry :: outer ∈ trailsIn around index elements →
        entry.2 = doctype ∨ Selector.isElementName entry.2.tag = true)
    (member : entry :: outer ∈ trailsIn around index elements)
    (shown : ∀ enclosing ∈ outer, isVoid enclosing.2.tag = false) :
    entry.2.html <:+: htmlIn elements := by
  match elements with
  | [] =>
      cases member
  | element :: rest =>
      rcases List.mem_append.mp member with inFirst | inRest
      · exact (html_isInfix_html element around index
          (fun entry outer inner => tagged entry outer (List.mem_append_left _ inner))
          inFirst shown).trans (List.infix_append' [] element.html (htmlIn rest))
      · exact (html_isInfix_htmlIn rest around (index + 1)
          (fun entry outer inner => tagged entry outer (List.mem_append_right _ inner))
          inRest shown).trans (List.suffix_append element.html (htmlIn rest)).isInfix

end

end Printed

/-- A trail in a list of elements is in one of them. -/
theorem exists_mem_of_mem_trailsIn
    {elements : List Element}
    {around trail : Trail Element}
    {index : Nat}
    (member : trail ∈ trailsIn around index elements) :
    ∃ element ∈ elements, ∃ number,
      trail ∈ element.trails around number ∧
        element.trails around number ⊆ trailsIn around index elements := by
  induction elements generalizing index with
  | nil =>
      cases member
  | cons first rest inductionHypothesis =>
      rw [trailsIn]
      rcases List.mem_append.mp member with inFirst | inRest
      · exact ⟨first, List.mem_cons_self, index, inFirst, List.subset_append_left _ _⟩
      · obtain ⟨element, isElement, number, inElement, included⟩ := inductionHypothesis inRest
        exact ⟨element, List.mem_cons_of_mem _ isElement, number, inElement,
          List.subset_append_of_subset_right _ included⟩

/-- An element is printed with its attributes right behind its tag. -/
theorem isPrefix_html
    {element : Element}
    (tagged : element = doctype ∨ Selector.isElementName element.tag = true) :
    '<' :: (element.tag ++ element.attributes.flatMap attributeHtml) <+: element.html := by
  rcases tagged with rfl | named
  · exact ⟨['>'], rfl⟩
  · obtain ⟨tag, attributes, content, children⟩ := element
    rw [html_of_isElementName named]
    exact ⟨htmlBehind tag content children, by simp⟩

end Element

theorem Text.isInfix_join
    (separator : Text)
    {text : Text}
    {texts : List Text}
    (member : text ∈ texts) :
    text <:+: join separator texts := by
  match texts with
  | [first] =>
      cases List.mem_singleton.mp member
      exact List.infix_rfl
  | first :: next :: others =>
      rw [join]
      rcases List.mem_cons.mp member with rfl | later
      · rw [List.append_assoc]
        exact (List.prefix_append _ _).isInfix
      · exact (isInfix_join separator later).trans (List.suffix_append _ _).isInfix

/-- The markup of an attribute has the name without one marker. -/
theorem Element.attributeHtml_eq_dropped
    (given : Attribute) :
    attributeHtml given =
      ' ' :: (if given.name.head? = some Attribute.marker then given.name.tail else given.name)
        ++ '=' :: given.value := by
  unfold attributeHtml
  split
  · next marked =>
      obtain ⟨rest, shape⟩ := List.head?_eq_some_iff.mp marked
      rw [shape, Attribute.bareName_marked, List.tail_cons]
  · next unmarked =>
      rw [Attribute.bareName_of_unmarked unmarked]

namespace Page

/--
What it means that a page names and prints attributes as a sheet gives them: its elements
and the visible rules pair off in document order, and name by name the attributes are those
of items right inside the rule.  Every element that stands in none that closes itself is
printed with all its attributes, their names without one marker at the front.
-/
structure NamesAttributes
    (items : List (Item Place))
    (page : Page) : Prop where
  names : List.Forall₂ Outline.NamedInRule (Item.visibleTrails items) page.trails
  printed :
    ∀ number element around,
      (number, element) :: around ∈ page.trails →
        (∀ enclosing ∈ around, Element.isVoid enclosing.2.tag = false) →
          '<' :: (element.tag ++ element.attributes.flatMap fun given =>
              ' ' :: (if given.name.head? = some Attribute.marker then
                given.name.tail else given.name) ++ '=' :: given.value) <:+: page.html

/-- Attributes are named and printed as their sheet gives them. -/
theorem namesAttributes_ofItems
    (items : List (Item Place)) :
    NamesAttributes items (ofItems items) where
  names :=
    (Outline.builtFrom_ofItems (Variables.ofItems items) items 0 0).imp fun _ _ =>
      Outline.NamedInRule.of_builtFrom
  printed := by
    intro number element around member shown
    obtain ⟨root, isRoot, count, inRoot, included⟩ :=
      Element.exists_mem_of_mem_trailsIn member
    have inElement :=
      (Element.isPrefix_html (Element.tag_of_mem_trails member)).isInfix
    have inRoot : element.html <:+: root.html :=
      Element.html_isInfix_html root [] count
        (fun _ _ inner => Element.tag_of_mem_trails (included inner)) inRoot shown
    have inPage : root.html <:+: (ofItems items).html :=
      Text.isInfix_join _ (List.mem_map_of_mem isRoot)
    rw [funext Element.attributeHtml_eq_dropped] at inElement
    exact (inElement.trans inRoot).trans inPage

/-- A rule for an attribute with a second marker behind the one of its selector. -/
def twiceMarked : Text :=
  "a\x7b\\\\x\x7bcontent:b\x7d\x7d".toList

/-- A rule for an attribute with a marker and a blank for its selector. -/
def onlyMarked : Text :=
  "a\x7b\\ \x7bcontent:b\x7d\x7d".toList

/--
Not every name on a page is whole, nor printed as it is: behind the marker of its selector
a rule can have another marker, or nothing at all.
-/
theorem exists_marked_name :
    ¬ (∀ source items, Item.ofSource source = .ok items →
        ∀ number element around, (number, element) :: around ∈ (ofItems items).trails →
          ∀ given ∈ element.attributes, Attribute.isWhole given.name = true) ∧
      (Item.ofSource twiceMarked).map (fun items => (ofItems items).map Element.attributes) =
        .ok [[⟨"\\x".toList, ['b']⟩]] ∧
      convert twiceMarked = .ok "<a x=b></a>".toList ∧
      (Item.ofSource onlyMarked).map (fun items => (ofItems items).map Element.attributes) =
        .ok [[⟨[], ['b']⟩]] ∧
      convert onlyMarked = .ok "<a =b></a>".toList := by
  have marked :
      (Item.ofSource twiceMarked).map (fun items => (ofItems items).map Element.attributes) =
        .ok [[⟨"\\x".toList, ['b']⟩]] := by
    decide +kernel
  refine ⟨fun whole => ?_, marked, by decide +kernel, by decide +kernel, by decide +kernel⟩
  obtain ⟨items, parsed, attributes⟩ := exists_of_map_eq_ok marked
  obtain ⟨element, page, first⟩ := List.map_eq_singleton_iff.mp attributes
  have member : [(0, element)] ∈ (ofItems items).trails := by
    rw [page, trails, Element.trailsIn, Element.trails_eq]
    exact List.mem_cons_self
  have isWhole := whole _ items parsed 0 element [] member
  rw [first] at isWhole
  exact absurd (isWhole _ List.mem_cons_self) (by decide)

end Page

end PageSheet
