import PageSheet.Proofs.AttributeMarkup
import PageSheet.Proofs.Composition
namespace PageSheet

/-!
# Markup tells pages apart

Where the names and values of attributes and the contents have none of the characters
that end them, markup can be read back piece by piece: whatever follows, the first
element of a markup and the rest behind it are told by the markup alone.  What can not
be told is what markup does not show: the quotes around a content, an empty content or
list of children, and all that is in an element which closes itself.
-/

namespace Element

/-- Whether a content, if there is one, ends where the next tag begins. -/
def isLegibleContent (content : Option Text) : Bool :=
  content.all fun text => !text.contains '<'

mutual

/-- Whether an element and everything in it can be read back from markup. -/
def isLegible : Element → Bool
  | ⟨tag, attributes, content, children⟩ =>
      Selector.isElementName tag && attributes.all Attribute.isLegible
        && isLegibleContent content && areLegible children

/-- Whether the children of an element can be read back from markup. -/
def areLegible : Option (List Element) → Bool
  | none => true
  | some children => isLegibleIn children

/-- Whether all elements of a list can be read back from markup. -/
def isLegibleIn : List Element → Bool
  | [] => true
  | element :: rest => element.isLegible && isLegibleIn rest

end

/-- A content as it shows: without its quotes, and absent if nothing is left. -/
def shownContent (content : Option Text) : Option Text :=
  (content.map unquoted).filter fun text => !text.isEmpty

mutual

/-- An element with all that does not show in markup put in one way. -/
def normal : Element → Element
  | ⟨tag, attributes, content, children⟩ =>
      if isVoid tag then
        ⟨tag, attributes, none, none⟩
      else
        ⟨tag, attributes, shownContent content, present (normalChildren children)⟩

/-- The normal forms of the children of an element. -/
def normalChildren : Option (List Element) → List Element
  | none => []
  | some children => normalIn children

/-- The normal forms of the elements of a list. -/
def normalIn : List Element → List Element
  | [] => []
  | element :: rest => element.normal :: normalIn rest

end

/-- What stands behind the attributes in the markup of an element. -/
def htmlBehind
    (tag : Text)
    (content : Option Text)
    (children : Option (List Element)) :
    Text :=
  if isVoid tag then
    [' ', '/', '>']
  else
    '>' :: contentHtml content ++ linkHtml tag ++ childrenHtml children
      ++ ['<', '/'] ++ tag ++ ['>']

section Frame

variable {tag : Text} {attributes : List Attribute}

/-- The markup of an element with a name for its tag. -/
theorem html_of_isElementName
    (named : Selector.isElementName tag = true)
    (attributes : List Attribute)
    (content : Option Text)
    (children : Option (List Element)) :
    html ⟨tag, attributes, content, children⟩ =
      '<' :: (tag ++ (attributes.flatMap attributeHtml ++ htmlBehind tag content children)) := by
  rw [html]
  · rw [List.cons_append, List.cons_append, List.append_assoc]
    rfl
  · rintro rfl
    cases named
  · rintro rest rfl
    cases named

/-- The first character of a name for an element is a letter or a digit. -/
theorem exists_cons_of_isElementName
    (named : Selector.isElementName tag = true) :
    ∃ c rest, tag = c :: rest ∧ c.isAlphanum = true := by
  rw [Selector.isElementName, Bool.and_eq_true, List.all_eq_true] at named
  cases tag with
  | nil =>
      cases named.1
  | cons c rest =>
      exact ⟨c, rest, rfl, named.2 c List.mem_cons_self⟩

theorem isLegible_mk_iff
    {content : Option Text}
    {children : Option (List Element)} :
    isLegible ⟨tag, attributes, content, children⟩ = true ↔
      Selector.isElementName tag = true ∧ attributes.all Attribute.isLegible = true ∧
        isLegibleContent content = true ∧
          areLegible children = true := by
  simp only [isLegible, Bool.and_eq_true, and_assoc]

/-- A legible element starts with a bracket and a letter or digit. -/
theorem exists_html_of_isLegible
    {element : Element}
    (legible : element.isLegible = true) :
    ∃ c rest, element.html = '<' :: c :: rest ∧ c.isAlphanum = true := by
  obtain ⟨tag, attributes, content, children⟩ := element
  have named := (isLegible_mk_iff.mp legible).1
  obtain ⟨c, rest, rfl, alphanumeric⟩ := exists_cons_of_isElementName named
  rw [html_of_isElementName named]
  exact ⟨c, _, rfl, alphanumeric⟩

/-- What stands behind the content of an element starts with a bracket. -/
theorem exists_bracket
    (tag : Text)
    {children : Option (List Element)}
    (legible : areLegible children = true)
    (rest : Text) :
    ∃ behind, linkHtml tag ++ (childrenHtml children ++ '<' :: rest) = '<' :: behind := by
  unfold linkHtml
  split
  · exact ⟨_, rfl⟩
  · match children with
    | none =>
        exact ⟨rest, rfl⟩
    | some [] =>
        exact ⟨rest, rfl⟩
    | some (child :: others) =>
        rw [areLegible, isLegibleIn, Bool.and_eq_true] at legible
        obtain ⟨c, behind, shape, -⟩ := exists_html_of_isLegible legible.1
        exact ⟨c :: (behind ++ htmlIn others ++ '<' :: rest), by
          rw [childrenHtml, htmlIn, shape]; rfl⟩

/-- Taking off quotes brings nothing into a content. -/
theorem unquoted_subset
    (text : Text) :
    unquoted text ⊆ text := by
  intro c member
  unfold unquoted at member
  split at member
  · split at member
    · exact List.mem_cons_of_mem _ (List.dropLast_subset _ member)
    · exact member
  · exact member

/-- No bracket stands in a content as it is written. -/
theorem not_bracket_of_contentHtml
    {content : Option Text}
    (legible : isLegibleContent content = true) :
    ∀ c ∈ contentHtml content, (c ≠ '<' : Bool) = true := by
  cases content with
  | none =>
      exact List.forall_mem_nil _
  | some text =>
      intro c member
      have inText := unquoted_subset text member
      have absent : '<' ∉ text := by
        simpa [isLegibleContent] using legible
      rw [decide_eq_true_eq]
      rintro rfl
      exact absent inText

/-- A content shows as it stands in the markup, unless nothing of it does. -/
theorem shownContent_eq
    (content : Option Text) :
    shownContent content =
      if contentHtml content = [] then none else some (contentHtml content) := by
  cases content with
  | none =>
      rfl
  | some text =>
      unfold shownContent contentHtml
      cases shape : unquoted text <;> simp [shape]

/-- What shows of an element behind its attributes is told from what stands behind it. -/
theorem htmlBehind_append_inj
    {content content' : Option Text}
    {children children' : Option (List Element)}
    (contentLegible : isLegibleContent content = true)
    (contentLegible' : isLegibleContent content' = true)
    (childrenLegible : areLegible children = true)
    (childrenLegible' : areLegible children' = true)
    (inner :
      ∀ {behind behind' : Text},
        childrenHtml children ++ '<' :: '/' :: behind =
            childrenHtml children' ++ '<' :: '/' :: behind' →
          normalChildren children = normalChildren children' ∧ behind = behind')
    {rest rest' : Text}
    (same :
      htmlBehind tag content children ++ rest = htmlBehind tag content' children' ++ rest') :
    normal ⟨tag, attributes, content, children⟩ =
        normal ⟨tag, attributes, content', children'⟩ ∧
      rest = rest' := by
  unfold htmlBehind at same
  by_cases isVoidTag : isVoid tag = true
  · rw [if_pos isVoidTag, if_pos isVoidTag] at same
    simp only [normal, if_pos isVoidTag, true_and]
    exact List.append_cancel_left same
  · rw [if_neg isVoidTag, if_neg isVoidTag] at same
    simp only [List.append_assoc, List.cons_append, List.nil_append, List.cons.injEq,
      true_and] at same
    obtain ⟨behind, bracket⟩ :=
      exists_bracket tag childrenLegible ('/' :: (tag ++ '>' :: rest))
    obtain ⟨behind', bracket'⟩ :=
      exists_bracket tag childrenLegible' ('/' :: (tag ++ '>' :: rest'))
    rw [bracket, bracket'] at same
    obtain ⟨contents, insides⟩ :=
      Text.append_inj_of_stop (not_bracket_of_contentHtml contentLegible)
        (not_bracket_of_contentHtml contentLegible') rfl rfl same
    rw [← bracket, ← bracket'] at insides
    obtain ⟨nested, ends⟩ := inner (List.append_cancel_left insides)
    simp only [normal, if_neg isVoidTag, shownContent_eq, contents, nested, true_and]
    exact (List.cons.inj (List.append_cancel_left ends)).2

/-- Attributes end where the rest of an element begins. -/
theorem endsAttributes_htmlBehind
    (tag : Text)
    (content : Option Text)
    (children : Option (List Element))
    (rest : Text) :
    Attribute.EndsAttributes (htmlBehind tag content children ++ rest) := by
  unfold htmlBehind
  split
  · exact .closes _
  · exact .opens _

/-- Behind a tag stands a character that it does not have. -/
theorem exists_stop
    (attributes : List Attribute)
    {rest : Text}
    (ends : Attribute.EndsAttributes rest) :
    ∃ c others,
      attributes.flatMap attributeHtml ++ rest = c :: others ∧ c.isAlphanum = false := by
  obtain ⟨c, others, shape, isEnd⟩ := Attribute.exists_endsValue attributes ends
  simp only [Attribute.endsValue, Bool.or_eq_true, decide_eq_true_eq] at isEnd
  refine ⟨c, others, shape, ?_⟩
  rcases isEnd with rfl | rfl <;> rfl

end Frame

/-- A closing tag is told from elements. -/
theorem eq_nil_of_closing
    {elements : List Element}
    (legible : isLegibleIn elements = true)
    {rest rest' : Text}
    (same : '<' :: '/' :: rest = htmlIn elements ++ '<' :: '/' :: rest') :
    elements = [] ∧ rest = rest' := by
  cases elements with
  | nil =>
      exact ⟨rfl, (List.cons.inj (List.cons.inj same).2).2⟩
  | cons element others =>
      rw [isLegibleIn, Bool.and_eq_true] at legible
      obtain ⟨c, behind, shape, alphanumeric⟩ := exists_html_of_isLegible legible.1
      rw [htmlIn, shape] at same
      obtain ⟨rfl, -⟩ := List.cons.inj (List.cons.inj same).2
      cases alphanumeric

/-- Absent children show like an empty list of them. -/
theorem exists_listed
    (children : Option (List Element)) :
    ∃ elements,
      areLegible children = isLegibleIn elements ∧ childrenHtml children = htmlIn elements ∧
        normalChildren children = normalIn elements := by
  cases children with
  | none =>
      exact ⟨[], rfl, rfl, rfl⟩
  | some elements =>
      exact ⟨elements, rfl, rfl, rfl⟩

mutual

/-- An element is told by its markup as far as it shows, whatever stands behind it. -/
theorem html_append_inj
    (element : Element)
    (legible : element.isLegible = true)
    {element' : Element}
    (legible' : element'.isLegible = true)
    {rest rest' : Text}
    (same : element.html ++ rest = element'.html ++ rest') :
    element.normal = element'.normal ∧ rest = rest' := by
  match element, element' with
  | ⟨tag, attributes, content, children⟩, ⟨tag', attributes', content', children'⟩ =>
      obtain ⟨named, attributesLegible, contentLegible, childrenLegible⟩ :=
        isLegible_mk_iff.mp legible
      obtain ⟨named', attributesLegible', contentLegible', childrenLegible'⟩ :=
        isLegible_mk_iff.mp legible'
      have ends := endsAttributes_htmlBehind tag content children rest
      have ends' := endsAttributes_htmlBehind tag' content' children' rest'
      obtain ⟨stop, behind, shape, stops⟩ := exists_stop attributes ends
      obtain ⟨stop', behind', shape', stops'⟩ := exists_stop attributes' ends'
      rw [html_of_isElementName named, html_of_isElementName named'] at same
      simp only [List.cons_append, List.append_assoc, List.cons.injEq, true_and] at same
      rw [shape, shape'] at same
      rw [Selector.isElementName, Bool.and_eq_true, List.all_eq_true] at named named'
      -- The tag comes first: whether the element closes itself is told by nothing else.
      obtain ⟨rfl, tails⟩ :=
        Text.append_inj_of_stop named.2 named'.2 stops stops' same
      rw [← shape, ← shape'] at tails
      obtain ⟨rfl, insides⟩ :=
        Attribute.attributes_append_inj attributesLegible attributesLegible' ends ends' tails
      exact htmlBehind_append_inj contentLegible contentLegible' childrenLegible
        childrenLegible' (childrenHtml_append_inj children childrenLegible childrenLegible')
        insides

theorem childrenHtml_append_inj
    (children : Option (List Element))
    (legible : areLegible children = true)
    {children' : Option (List Element)}
    (legible' : areLegible children' = true)
    {rest rest' : Text}
    (same :
      childrenHtml children ++ '<' :: '/' :: rest =
        childrenHtml children' ++ '<' :: '/' :: rest') :
    normalChildren children = normalChildren children' ∧ rest = rest' := by
  obtain ⟨elements', legibleIn', shape', normal'⟩ := exists_listed children'
  rw [legibleIn'] at legible'
  rw [shape'] at same
  rw [normal']
  match children with
  | none =>
      obtain ⟨rfl, rests⟩ := eq_nil_of_closing legible' same
      exact ⟨rfl, rests⟩
  | some elements =>
      exact htmlIn_append_inj elements legible legible' same

theorem htmlIn_append_inj
    (elements : List Element)
    (legible : isLegibleIn elements = true)
    {elements' : List Element}
    (legible' : isLegibleIn elements' = true)
    {rest rest' : Text}
    (same : htmlIn elements ++ '<' :: '/' :: rest = htmlIn elements' ++ '<' :: '/' :: rest') :
    normalIn elements = normalIn elements' ∧ rest = rest' := by
  match elements, elements' with
  | [], elements' =>
      obtain ⟨rfl, rests⟩ := eq_nil_of_closing legible' same
      exact ⟨rfl, rests⟩
  | element :: others, [] =>
      obtain ⟨isNil, -⟩ := eq_nil_of_closing legible same.symm
      cases isNil
  | element :: others, element' :: others' =>
      rw [isLegibleIn, Bool.and_eq_true] at legible legible'
      rw [htmlIn, htmlIn, List.append_assoc, List.append_assoc] at same
      obtain ⟨first, behind⟩ := html_append_inj element legible.1 legible'.1 same
      obtain ⟨later, rests⟩ := htmlIn_append_inj others legible.2 legible'.2 behind
      exact ⟨by rw [normalIn, normalIn, first, later], rests⟩

end

theorem present_injective
    {elements elements' : List Element}
    (same : present elements = present elements') :
    elements = elements' := by
  cases elements <;> cases elements' <;> cases same <;> rfl

theorem contentHtml_eq_of_shownContent
    {content content' : Option Text}
    (same : shownContent content = shownContent content') :
    contentHtml content = contentHtml content' := by
  rw [shownContent_eq, shownContent_eq] at same
  split at same <;> split at same
  · next nothing nothing' =>
      rw [nothing, nothing']
  · cases same
  · cases same
  · exact Option.some.inj same

/-- Only what shows of the content and of the children is in the markup. -/
theorem html_congr
    {tag : Text}
    {attributes : List Attribute}
    {content content' : Option Text}
    {children children' : Option (List Element)}
    (shows :
      isVoid tag = false →
        contentHtml content = contentHtml content' ∧
          childrenHtml children = childrenHtml children') :
    html ⟨tag, attributes, content, children⟩ = html ⟨tag, attributes, content', children'⟩ := by
  unfold html
  split
  · exact (shows rfl).1
  · rfl
  · by_cases isVoidTag : isVoid tag = true
    · rw [if_pos isVoidTag, if_pos isVoidTag]
    · obtain ⟨contents, nested⟩ := shows (by simpa using isVoidTag)
      rw [if_neg isVoidTag, if_neg isVoidTag, contents, nested]

/-- A normal form has the tag and the attributes of its element. -/
theorem normal_frame
    (element : Element) :
    element.normal.tag = element.tag ∧ element.normal.attributes = element.attributes := by
  obtain ⟨tag, attributes, content, children⟩ := element
  unfold normal
  split <;> exact ⟨rfl, rfl⟩

mutual

/-- The markup of an element is that of its normal form. -/
theorem html_eq_of_normal
    (element : Element)
    {element' : Element}
    (same : element.normal = element'.normal) :
    element.html = element'.html := by
  match element, element' with
  | ⟨tag, attributes, content, children⟩, ⟨tag', attributes', content', children'⟩ =>
      have frame := normal_frame ⟨tag, attributes, content, children⟩
      have frame' := normal_frame ⟨tag', attributes', content', children'⟩
      rw [same] at frame
      obtain ⟨rfl, rfl⟩ : tag' = tag ∧ attributes' = attributes :=
        ⟨frame'.1.symm.trans frame.1, frame'.2.symm.trans frame.2⟩
      refine html_congr fun notVoid => ?_
      simp only [normal, notVoid, Bool.false_eq_true, if_false, Element.mk.injEq, true_and]
        at same
      exact ⟨contentHtml_eq_of_shownContent same.1,
        childrenHtml_eq_of_normalChildren children (present_injective same.2)⟩

theorem childrenHtml_eq_of_normalChildren
    (children : Option (List Element))
    {children' : Option (List Element)}
    (same : normalChildren children = normalChildren children') :
    childrenHtml children = childrenHtml children' := by
  obtain ⟨elements', -, shape', normal'⟩ := exists_listed children'
  rw [normal'] at same
  rw [shape']
  match children with
  | none =>
      cases elements' with
      | nil =>
          rfl
      | cons element others =>
          cases same
  | some elements =>
      exact htmlIn_eq_of_normalIn elements same

theorem htmlIn_eq_of_normalIn
    (elements : List Element)
    {elements' : List Element}
    (same : normalIn elements = normalIn elements') :
    htmlIn elements = htmlIn elements' := by
  match elements, elements' with
  | [], [] =>
      rfl
  | element :: others, element' :: others' =>
      obtain ⟨first, later⟩ := List.cons.inj same
      rw [htmlIn, htmlIn, html_eq_of_normal element first, htmlIn_eq_of_normalIn others later]

end

/-- Whether an outermost element can be read back from markup. -/
def IsLegibleRoot (element : Element) : Prop :=
  element = doctype ∨ element.isLegible = true

theorem tag_ne_nil_of_root
    {element : Element}
    (root : IsLegibleRoot element) :
    element.tag ≠ [] := by
  rcases root with rfl | legible
  · exact List.cons_ne_nil _ _
  · obtain ⟨tag, attributes, content, children⟩ := element
    obtain ⟨c, rest, rfl, -⟩ := exists_cons_of_isElementName (isLegible_mk_iff.mp legible).1
    exact List.cons_ne_nil c rest

/-- An outermost element is told by its markup as far as it shows. -/
theorem rootHtml_append_inj
    {element element' : Element}
    (root : IsLegibleRoot element)
    (root' : IsLegibleRoot element')
    {rest rest' : Text}
    (same : element.html ++ rest = element'.html ++ rest') :
    element.normal = element'.normal ∧ rest = rest' := by
  have notDoctype :
      ∀ {legible : Element} {behind behind' : Text},
        legible.isLegible = true → doctype.html ++ behind ≠ legible.html ++ behind' := by
    intro legible behind behind' isLegible isSame
    obtain ⟨c, others, shape, alphanumeric⟩ := exists_html_of_isLegible isLegible
    rw [shape] at isSame
    obtain ⟨rfl, -⟩ := List.cons.inj (List.cons.inj isSame).2
    cases alphanumeric
  rcases root with rfl | legible <;> rcases root' with rfl | legible'
  · exact ⟨rfl, List.append_cancel_left same⟩
  · exact absurd same (notDoctype legible')
  · exact absurd same.symm (notDoctype legible)
  · exact html_append_inj element legible legible' same

end Element

namespace Page

/-- The markup of a page with a line feed before every outermost element. -/
def lines (page : Page) : Text :=
  page.flatMap fun root => '\n' :: root.html

theorem lines_cons
    (root : Element)
    (rest : Page) :
    lines (root :: rest) = '\n' :: html (root :: rest) := by
  induction rest generalizing root with
  | nil =>
      exact List.append_nil _
  | cons next others inductionHypothesis =>
      have first : lines (root :: next :: others) = _ ++ lines (next :: others) :=
        List.flatMap_cons
      rw [first, inductionHypothesis next]
      simp [html, Text.join]

variable {page page' : Page}

/-- Lines that are the same show the same outermost elements. -/
theorem map_normal_eq_of_lines
    (roots : ∀ root ∈ page, Element.IsLegibleRoot root)
    (roots' : ∀ root ∈ page', Element.IsLegibleRoot root)
    (same : lines page = lines page') :
    page.map Element.normal = page'.map Element.normal := by
  induction page generalizing page' with
  | nil =>
      cases page' with
      | nil =>
          rfl
      | cons root' rest' =>
          cases same
  | cons root rest inductionHypothesis =>
      cases page' with
      | nil =>
          cases same
      | cons root' rest' =>
          obtain ⟨first, others⟩ := List.forall_mem_cons.mp roots
          obtain ⟨first', others'⟩ := List.forall_mem_cons.mp roots'
          obtain ⟨shows, behind⟩ :=
            Element.rootHtml_append_inj first first' (List.cons.inj same).2
          rw [List.map_cons, List.map_cons, shows, inductionHypothesis others others' behind]

/-- Only the page without elements has no markup. -/
theorem html_eq_nil_iff
    (roots : ∀ root ∈ page, Element.IsLegibleRoot root) :
    page.html = [] ↔ page = [] := by
  have inhabited : ∀ text ∈ page.map Element.html, text ≠ [] :=
    List.forall_mem_map.mpr fun root member =>
      Element.html_ne_nil (Element.tag_ne_nil_of_root (roots root member))
  rw [html, Text.join_eq_nil_iff _ inhabited, List.map_eq_nil_iff]

/-- Pages have the same markup where their outermost elements have the same normal form. -/
theorem html_eq_of_normal
    (same : page.map Element.normal = page'.map Element.normal) :
    page.html = page'.html := by
  have lines : page.map Element.html = page'.map Element.html := by
    induction page generalizing page' with
    | nil =>
        rw [List.map_eq_nil_iff.mp same.symm]
    | cons root rest inductionHypothesis =>
        obtain ⟨root', rest', rfl, first, others⟩ := List.map_eq_cons_iff.mp same.symm
        rw [List.map_cons, List.map_cons, Element.html_eq_of_normal root first.symm,
          inductionHypothesis others.symm]
  exact congrArg (Text.join ['\n']) lines

/-- The markup of a page tells the normal form of the page, and nothing else. -/
theorem html_eq_iff_normal_eq
    (roots : ∀ root ∈ page, Element.IsLegibleRoot root)
    (roots' : ∀ root ∈ page', Element.IsLegibleRoot root) :
    page.html = page'.html ↔ page.map Element.normal = page'.map Element.normal := by
  refine ⟨fun same => map_normal_eq_of_lines roots roots' ?_, html_eq_of_normal⟩
  cases page with
  | nil =>
      rw [(html_eq_nil_iff roots').mp same.symm]
  | cons root rest =>
      cases page' with
      | nil =>
          cases (html_eq_nil_iff roots).mp same
      | cons root' rest' =>
          rw [lines_cons, lines_cons, same]

/-- A page whose quotes, empty lists and void content do not show. -/
def loose : Page :=
  [ Element.doctype,
    ⟨"head".toList, [], some "\"a>b\"".toList, none⟩,
    ⟨"br".toList, [⟨"data-x".toList, "=/".toList⟩], some "c".toList,
      some [⟨"p".toList, [], none, none⟩]⟩,
    ⟨"p".toList, [⟨"class".toList, "\"d e\"".toList⟩, ⟨"id".toList, []⟩], none,
      some [⟨"b".toList, [], some "\"\"".toList, some []⟩]⟩ ]

/-- The same page written in another way. -/
def tight : Page :=
  [ Element.doctype,
    ⟨"head".toList, [], some "a>b".toList, some []⟩,
    ⟨"br".toList, [⟨"data-x".toList, "=/".toList⟩], none, none⟩,
    ⟨"p".toList, [⟨"class".toList, "\"d e\"".toList⟩, ⟨"id".toList, []⟩], some [],
      some [⟨"b".toList, [], none, none⟩]⟩ ]

/-- What markup does not show is all that two pages with the same markup differ in. -/
theorem html_eq_iff_normal_eq_loose :
    (∀ root ∈ loose, Element.IsLegibleRoot root) ∧
      (∀ root ∈ tight, Element.IsLegibleRoot root) ∧
        loose.html = tight.html ∧
          loose.map Element.normal = tight.map Element.normal := by
  have roots : ∀ root ∈ loose, Element.IsLegibleRoot root := by
    refine List.forall_mem_cons.mpr ⟨.inl rfl, fun root member => .inr ?_⟩
    revert root
    decide +kernel
  have roots' : ∀ root ∈ tight, Element.IsLegibleRoot root := by
    refine List.forall_mem_cons.mpr ⟨.inl rfl, fun root member => .inr ?_⟩
    revert root
    decide +kernel
  have same : loose.html = tight.html := by
    decide +kernel
  exact ⟨roots, roots', same, (html_eq_iff_normal_eq roots roots').mp same⟩

end Page

end PageSheet
