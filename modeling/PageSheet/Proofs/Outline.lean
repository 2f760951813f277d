import PageSheet.Page
import PageSheet.Proofs.Trails
namespace PageSheet

/-!
# The outline of a page

The elements of a page are the rules of its sheet that are visible: the outermost rules
for the document type, and every rule for an element that stands in nothing but rules
for elements.  Both are in document order, and an element stands in the element of the
rule around its own.
-/

namespace Item

/-- Whether an item is a rule that names an element. -/
def namesElement : Item Place → Bool
  | .rule selector _ _ => Selector.isElementName selector
  | _ => false

/-- Whether an item is a rule for the document type. -/
def isDoctypeRule : Item Place → Bool
  | .rule selector _ _ => selector = Selector.rootText
  | _ => false

/-- Whether a trail is that of a rule which shows on the page. -/
def isVisible : Trail (Item Place) → Bool
  | [] => false
  | (_, item) :: around =>
      (item.isDoctypeRule && around.isEmpty)
        || (item.namesElement && around.all fun outer => outer.2.namesElement)

/-- The trails of the rules of a sheet which show on its page, in document order. -/
def visibleTrails (items : List (Item Place)) : List (Trail (Item Place)) :=
  (trailsIn [] 0 items).filter isVisible

end Item

/-- The trails of all elements of a page, in document order. -/
def Page.trails (page : Page) : List (Trail Element) :=
  Element.trailsIn [] 0 page

namespace Outline

/-- What it means that a rule and an element belong together, by the selector and the tag. -/
inductive Tags : Trail (Item Place) → Trail Element → Prop
  | doctype
      (index : Nat)
      (children : List (Item Place))
      (place : Place)
      (number : Nat) :
      Tags [(index, .rule Selector.rootText children place)] [(number, .doctype)]
  | element
      (element : Element)
      (named : Selector.isElementName element.tag = true)
      (inhabited : element.children ≠ some [])
      (index : Nat)
      (children : List (Item Place))
      (place : Place)
      (around : Trail (Item Place))
      (number : Nat)
      (around' : Trail Element) :
      Tags ((index, .rule element.tag children place) :: around)
        ((number, element) :: around')

/--
What it means that the trails of rules and of elements are put together in step: a rule
and its element, then what is in the one and in the other, then what follows them.
-/
inductive InStep :
    Trail (Item Place) → Trail Element →
    List (Trail (Item Place)) → List (Trail Element) → Prop
  | nil
      {around : Trail (Item Place)}
      {around' : Trail Element} :
      InStep around around' [] []
  | node
      {around : Trail (Item Place)}
      {around' : Trail Element}
      {here : Nat × Item Place}
      {here' : Nat × Element}
      {inside rest : List (Trail (Item Place))}
      {inside' rest' : List (Trail Element)}
      (tags : Tags (here :: around) (here' :: around'))
      (inner : InStep (here :: around) (here' :: around') inside inside')
      (others : InStep around around' rest rest') :
      InStep around around'
        ((here :: around) :: inside ++ rest)
        ((here' :: around') :: inside' ++ rest')

namespace InStep

variable
  {around : Trail (Item Place)}
  {around' : Trail Element}
  {rules : List (Trail (Item Place))}
  {elements : List (Trail Element)}

theorem length_eq
    (inStep : InStep around around' rules elements) :
    rules.length = elements.length := by
  induction inStep with
  | nil =>
      rfl
  | node _ _ _ innerHypothesis othersHypothesis =>
      simp only [List.length_append, List.length_cons, innerHypothesis, othersHypothesis]

theorem tags
    (inStep : InStep around around' rules elements) :
    ∀ pair ∈ rules.zip elements, Tags pair.1 pair.2 := by
  induction inStep with
  | nil =>
      exact List.forall_mem_nil _
  | node tags inner _ innerHypothesis othersHypothesis =>
      rw [List.zip_append (congrArg (· + 1) inner.length_eq), List.forall_mem_append,
        List.zip_cons_cons, List.forall_mem_cons]
      exact ⟨⟨tags, innerHypothesis⟩, othersHypothesis⟩

/-- A pair of trails leads right out of the tree, or to another pair. -/
theorem parents
    (inStep : InStep around around' rules elements) :
    ∀ pair ∈ rules.zip elements,
      (pair.1.tail = around ∧ pair.2.tail = around') ∨
        (pair.1.tail, pair.2.tail) ∈ rules.zip elements := by
  induction inStep with
  | nil =>
      exact List.forall_mem_nil _
  | node tags inner _ innerHypothesis othersHypothesis =>
      rw [List.zip_append (congrArg (· + 1) inner.length_eq), List.zip_cons_cons]
      intro pair member
      rcases List.mem_append.mp member with inHere | inRest
      · rcases List.mem_cons.mp inHere with rfl | inInside
        · exact .inl ⟨rfl, rfl⟩
        · refine .inr (List.mem_append_left _ ?_)
          rcases innerHypothesis pair inInside with ⟨same, same'⟩ | isPair
          · rw [same, same']
            exact List.mem_cons_self
          · exact List.mem_cons_of_mem _ isPair
      · rcases othersHypothesis pair inRest with outside | isPair
        · exact .inl outside
        · exact .inr (List.mem_append_right _ isPair)

/-- Every element is in a pair. -/
theorem exists_tags
    (inStep : InStep around around' rules elements)
    {element : Trail Element}
    (member : element ∈ elements) :
    ∃ rule : Trail (Item Place), Tags rule element := by
  obtain ⟨position, inElements, rfl⟩ := List.mem_iff_getElem.mp member
  have inRules : position < rules.length :=
    inStep.length_eq.symm ▸ inElements
  have isPair : (rules[position], elements[position]) ∈ rules.zip elements :=
    List.mem_iff_getElem.mpr
      ⟨position, by rw [List.length_zip]; omega, List.getElem_zip⟩
  exact ⟨_, inStep.tags _ isPair⟩

end InStep

end Outline

namespace Item

theorem eq_rule_of_isDoctypeRule
    {item : Item Place}
    (isRule : item.isDoctypeRule = true) :
    ∃ children place, item = .rule Selector.rootText children place := by
  cases item with
  | rule selector children place =>
      have same : selector = Selector.rootText := by
        simpa [isDoctypeRule] using isRule
      exact ⟨children, place, by rw [same]⟩
  | _ =>
      cases isRule

variable {item : Item Place} {around : Trail (Item Place)}

/-- Nothing is visible inside an item that names no element. -/
theorem filter_isVisible_inside
    (unnamed : item.namesElement = false)
    (index : Nat) :
    (trailsIn ((index, item) :: around) 0 item.children).filter isVisible = [] := by
  rw [List.filter_eq_nil_iff]
  intro trail member
  obtain ⟨front, number, inner, -, rfl⟩ := (listing_children item _).exists_front member
  cases front <;> simp [isVisible, unnamed]

/-- An item that is no visible rule has none in it. -/
theorem filter_isVisible_of_hidden
    {index : Nat}
    (unnamed : item.namesElement = false)
    (hidden : isVisible ((index, item) :: around) = false) :
    (item.trails around index).filter isVisible = [] := by
  rw [trails_eq, List.filter_cons_of_neg (by simp [hidden])]
  exact filter_isVisible_inside unnamed index

end Item

theorem Selector.isElement_eq
    (selector : Text) :
    isElement selector = isElementName selector := by
  unfold isElement
  cases stands : ofText selector with
  | element tag =>
      exact (ofText_eq_element_iff.mp stands).1.symm
  | _ =>
      cases named : isElementName selector with
      | true =>
          rw [ofText_eq_element_iff.mpr ⟨named, rfl⟩] at stands
          cases stands
      | false =>
          rfl

namespace Element

theorem isElementRule_eq
    (item : Item Place) :
    isElementRule item = item.namesElement := by
  cases item with
  | rule selector children place =>
      exact Selector.isElement_eq selector
  | _ =>
      rfl

theorem ofItem?_rootText
    (table : Variables)
    (children : List (Item Place))
    (place : Place) :
    ofItem? table (.rule Selector.rootText children place) = some doctype :=
  rfl

/-- Only rules for the document type and for elements stand for anything. -/
theorem ofItem?_eq_none
    (table : Variables)
    {item : Item Place}
    (unnamed : item.namesElement = false)
    (notDoctype : ¬ item.isDoctypeRule = true) :
    ofItem? table item = none := by
  cases item with
  | rule selector children place =>
      have notRoot : selector ≠ Selector.rootText := by
        simpa [Item.isDoctypeRule] using notDoctype
      have notNamed : Selector.isElementName selector = false :=
        unnamed
      rw [ofItem?, Selector.ofText, if_neg notRoot, notNamed, if_neg Bool.false_ne_true]
      by_cases marked : selector.head? = some Attribute.marker
      · rw [if_pos marked]
      · rw [if_neg marked]
  | _ =>
      rfl

theorem trailsInside_present
    (around : Trail Element)
    (elements : List Element) :
    trailsInside around (present elements) = trailsIn around 0 elements := by
  cases elements <;> rfl

theorem present_ne
    (elements : List Element) :
    present elements ≠ some [] := by
  cases elements <;> simp [present]

end Element

namespace Outline

variable (table : Variables)

section Head

variable
  {item : Item Place}
  {element : Element}
  {around : Trail (Item Place)}
  {index : Nat}
  {around' : Trail Element}
  {number : Nat}
  {rest : List (Item Place)}
  {elements : List Element}

/-- A visible rule and its element come before what follows them, and what is in them, too. -/
theorem InStep.head
    (visible : Item.isVisible ((index, item) :: around) = true)
    (tags : Tags ((index, item) :: around) ((number, element) :: around'))
    (inner :
      InStep ((index, item) :: around) ((number, element) :: around')
        ((Item.trailsIn ((index, item) :: around) 0 item.children).filter Item.isVisible)
        (Element.trailsInside ((number, element) :: around') element.children))
    (others :
      InStep around around'
        ((Item.trailsIn around (index + 1) rest).filter Item.isVisible)
        (Element.trailsIn around' (number + 1) elements)) :
    InStep around around'
      ((Item.trailsIn around index (item :: rest)).filter Item.isVisible)
      (Element.trailsIn around' number (element :: elements)) := by
  rw [Item.trailsIn, Item.trails_eq, List.filter_append, List.filter_cons_of_pos visible,
    Element.trailsIn, Element.trails_eq]
  exact .node tags inner others

/-- An item that is no visible rule has no part in the outline. -/
theorem InStep.skip
    (unnamed : item.namesElement = false)
    (hidden : Item.isVisible ((index, item) :: around) = false)
    (others :
      InStep around around'
        ((Item.trailsIn around (index + 1) rest).filter Item.isVisible)
        (Element.trailsIn around' number elements)) :
    InStep around around'
      ((Item.trailsIn around index (item :: rest)).filter Item.isVisible)
      (Element.trailsIn around' number elements) := by
  rw [Item.trailsIn, List.filter_append, Item.filter_isVisible_of_hidden unnamed hidden]
  exact others

end Head

mutual

/-- A rule that names an element stands for one that is in step with it. -/
theorem exists_inStep
    (item : Item Place)
    (named : item.namesElement = true)
    (around : Trail (Item Place))
    (enclosed : (around.all fun outer => outer.2.namesElement) = true)
    (index : Nat)
    (around' : Trail Element)
    (number : Nat) :
    ∃ element,
      Element.ofItem? table item = some element ∧
        Tags ((index, item) :: around) ((number, element) :: around') ∧
          InStep ((index, item) :: around) ((number, element) :: around')
            ((Item.trailsIn ((index, item) :: around) 0 item.children).filter
              Item.isVisible)
            (Element.trailsInside ((number, element) :: around') element.children) := by
  cases item with
  | rule selector children place =>
      have stands : Selector.ofText selector = .element selector :=
        Selector.ofText_eq_element_iff.mpr ⟨named, rfl⟩
      have inside :=
        inStep_nestedIn children ((index, .rule selector children place) :: around)
          (List.cons_ne_nil _ _) (by rw [List.all_cons, named, enclosed]; rfl) 0
      simp only [Element.ofItem?, stands]
      refine ⟨_, rfl, ?_, ?_⟩
      · exact .element ⟨selector, _, _, _⟩ named (Element.present_ne _) ..
      · rw [Element.trailsInside_present]
        exact inside _ 0
  | _ =>
      cases named

/-- The visible rules in a rule for an element are in step with its elements. -/
theorem inStep_nestedIn
    (items : List (Item Place))
    (around : Trail (Item Place))
    (nested : around ≠ [])
    (enclosed : (around.all fun outer => outer.2.namesElement) = true)
    (index : Nat)
    (around' : Trail Element)
    (number : Nat) :
    InStep around around'
      ((Item.trailsIn around index items).filter Item.isVisible)
      (Element.trailsIn around' number (Element.nestedIn table items)) := by
  cases items with
  | nil =>
      exact .nil
  | cons item rest =>
      rw [Element.nestedIn, Element.isElementRule_eq]
      by_cases named : item.namesElement = true
      · obtain ⟨element, built, tags, inner⟩ :=
          exists_inStep item named around enclosed index around' number
        have visible : Item.isVisible ((index, item) :: around) = true := by
          simp only [Item.isVisible, named, enclosed, Bool.and_self, Bool.or_true]
        rw [if_pos named, built]
        exact .head visible tags inner
          (inStep_nestedIn rest around nested enclosed (index + 1) around' (number + 1))
      · have unnamed : item.namesElement = false := by
          simpa using named
        -- Inside a rule a rule for the document type is hidden, too.
        have hidden : Item.isVisible ((index, item) :: around) = false := by
          simp [Item.isVisible, unnamed, nested]
        rw [if_neg named]
        exact .skip unnamed hidden
          (inStep_nestedIn rest around nested enclosed (index + 1) around' number)

end

/-- The visible rules of a sheet are in step with the elements of its page. -/
theorem inStep_ofItems
    (items : List (Item Place))
    (index number : Nat) :
    InStep [] []
      ((Item.trailsIn [] index items).filter Item.isVisible)
      (Element.trailsIn [] number (Element.ofItems table items)) := by
  induction items generalizing index number with
  | nil =>
      exact .nil
  | cons item rest inductionHypothesis =>
      unfold Element.ofItems at inductionHypothesis ⊢
      by_cases named : item.namesElement = true
      · obtain ⟨element, built, tags, inner⟩ :=
          exists_inStep table item named [] rfl index [] number
        have visible : Item.isVisible [(index, item)] = true := by
          simp [Item.isVisible, named]
        rw [List.filterMap_cons_some built]
        exact .head visible tags inner (inductionHypothesis (index + 1) (number + 1))
      have unnamed : item.namesElement = false := by
        simpa using named
      by_cases isDoctypeRule : item.isDoctypeRule = true
      · obtain ⟨children, place, rfl⟩ := Item.eq_rule_of_isDoctypeRule isDoctypeRule
        rw [List.filterMap_cons_some (Element.ofItem?_rootText table children place)]
        refine .head rfl (.doctype index children place number) ?_
          (inductionHypothesis (index + 1) (number + 1))
        rw [Item.filter_isVisible_inside unnamed]
        exact .nil
      · have hidden : Item.isVisible [(index, item)] = false := by
          simp [Item.isVisible, unnamed, isDoctypeRule]
        rw [List.filterMap_cons_none (Element.ofItem?_eq_none table unnamed isDoctypeRule)]
        exact .skip unnamed hidden (inductionHypothesis (index + 1) number)

/--
What it means that the elements of a page are the visible rules of a sheet: the two lists
of trails pair off, and the pairs agree on tags and on what is around them.
-/
structure Mirrors
    (rules : List (Trail (Item Place)))
    (elements : List (Trail Element)) : Prop where
  /-- Every rule has an element and every element a rule. -/
  count : rules.length = elements.length
  /-- A rule or an element that is equal to another one has a trail of its own. -/
  distinct : rules.Nodup ∧ elements.Nodup
  /-- An element has the tag that the selector of its rule calls for. -/
  tags : ∀ pair ∈ rules.zip elements, Tags pair.1 pair.2
  /-- An element stands in the element of the rule around its rule, if there is one. -/
  parents :
    ∀ pair ∈ rules.zip elements,
      (pair.1.tail = [] ∧ pair.2.tail = []) ∨
        (pair.1.tail, pair.2.tail) ∈ rules.zip elements
  /-- Children that are not there are absent, but for the document type. -/
  children :
    ∀ number element around,
      (number, element) :: around ∈ elements →
        element = .doctype ∨ element.children ≠ some []
  /-- The document type does not stand in an element. -/
  doctypes :
    ∀ number element around,
      (number, element) :: around ∈ elements →
        element.tag = Element.doctype.tag → around = []

theorem InStep.mirrors
    {rules : List (Trail (Item Place))}
    {elements : List (Trail Element)}
    (inStep : InStep [] [] rules elements)
    (distinct : rules.Nodup ∧ elements.Nodup) :
    Mirrors rules elements where
  count := inStep.length_eq
  distinct := distinct
  tags := inStep.tags
  parents := inStep.parents
  children := by
    intro number element around member
    obtain ⟨rule, tags⟩ := inStep.exists_tags member
    cases tags with
    | doctype =>
        exact .inl rfl
    | element _ _ inhabited =>
        exact .inr inhabited
  doctypes := by
    intro number element around member isDoctype
    obtain ⟨rule, tags⟩ := inStep.exists_tags member
    cases tags with
    | doctype =>
        rfl
    | element _ named =>
        rw [isDoctype] at named
        exact absurd named (by decide)

/-- The elements of a page are the visible rules of its sheet, under any variables. -/
theorem mirrors_ofItems
    (items : List (Item Place)) :
    Mirrors (Item.visibleTrails items) (Page.trails (Element.ofItems table items)) :=
  (inStep_ofItems table items 0 0).mirrors
    ⟨(Item.listing_trailsIn items [] 0).nodup.filter _,
      (Element.listing_trailsIn _ [] 0).nodup⟩

/-- Rules are hidden in rules that name no element, as are inner rules for the document type. -/
example :
    let sheet : List (Item Unit) :=
      [ .rule Selector.rootText [.rule ['a'] [] ()] (),
        .rule ['.', 'x'] [.rule ['b'] [] ()] (),
        .rule ['p']
          [ .rule Selector.rootText [] (),
            .rule ['b'] [] (),
            .atBlock ['m'] [] [.rule ['q'] [] ()] (),
            .rule ['b'] [] () ] () ]
    (Item.visibleTrails sheet).map (List.map Prod.fst) = [[0], [2], [1, 2], [3, 2]] := by
  decide

end Outline

end PageSheet
