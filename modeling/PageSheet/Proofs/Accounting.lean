import PageSheet.Proofs.Definitions
import PageSheet.Proofs.Outline
import PageSheet.Trace
namespace PageSheet

/-!
# What a trace accounts for

Every definition of a sheet either makes its table larger or leaves a record, and every
declaration that gives nothing to its element leaves one record.  These declarations are
told by what is around them: at least one rule for an element, and further in nothing but
rules for attributes.  No such declaration is looked at twice, whatever stands next to it.
-/

namespace Event

/-- Whether a record tells that a variable was defined again. -/
def isRedefinition : Event → Bool
  | .redefined .. => true
  | _ => false

/-- Whether a record tells that a declaration or an outermost rule was left out. -/
def isOmission : Event → Bool
  | .dropped _ => true
  | .skipped _ => true
  | _ => false

/-- The property of the declaration that a record tells the loss of. -/
def dropped? : Event → Option Text
  | .dropped property => some property
  | _ => none

end Event

/-- The property of a declaration that gives nothing to any element. -/
def Declaration.unused? (stated : Declaration Place) : Option Text :=
  match Property.ofText stated.property with
  | .content => none
  | .attr => none
  | .custom => some stated.property
  | .style => some stated.property

namespace Item

/-- Whether an item is a rule that names an attribute. -/
def namesAttribute : Item Place → Bool
  | .rule selector _ _ =>
      match Selector.ofText selector with
      | .attr _ => true
      | _ => false
  | _ => false

/--
Whether the nodes around a node are, from the outside inwards, one or more rules for
elements and then only rules for attributes.
-/
def isInElement (around : Trail (Item Place)) : Bool :=
  let elements := around.dropWhile fun outer => outer.2.namesAttribute
  !elements.isEmpty && elements.all fun outer => outer.2.namesElement

/-- The property that is lost where a trail leads from. -/
def lost? : Trail (Item Place) → Option Text
  | (_, .declaration stated) :: around =>
      if isInElement around then stated.unused? else none
  | _ => none

/-- The properties of a sheet that are lost, one for each declaration, in document order. -/
def lostIn (items : List (Item Place)) : List Text :=
  (trailsIn [] 0 items).filterMap lost?

section Around

variable
  {item : Item Place}
  {entry : Nat × Item Place}
  {around : Trail (Item Place)}
  {index : Nat}

theorem namesAttribute_of_namesElement
    (named : item.namesElement = true) :
    item.namesAttribute = false := by
  cases item with
  | rule selector children place =>
      have stands : Selector.ofText selector = .element selector :=
        Selector.ofText_eq_element_iff.mpr ⟨named, rfl⟩
      simp only [namesAttribute, stands]
  | _ =>
      rfl

theorem namesElement_of_namesAttribute
    (named : item.namesAttribute = true) :
    item.namesElement = false := by
  rw [← Bool.not_eq_true]
  intro namesElement
  rw [namesAttribute_of_namesElement namesElement] at named
  cases named

theorem isInElement_cons
    (entry : Nat × Item Place)
    (around : Trail (Item Place)) :
    isInElement (entry :: around) =
      if entry.2.namesAttribute then
        isInElement around
      else
        entry.2.namesElement && around.all fun outer => outer.2.namesElement := by
  simp only [isInElement, List.dropWhile_cons]
  split <;> rfl

/-- Rules for elements are around what is in one of them. -/
theorem isInElement_of_all
    (named : (around.all fun outer => outer.2.namesElement) = true)
    (nested : around ≠ []) :
    isInElement around = true := by
  cases around with
  | nil =>
      exact absurd rfl nested
  | cons entry outer =>
      rw [List.all_cons, Bool.and_eq_true] at named
      rw [isInElement_cons, namesAttribute_of_namesElement named.1, if_neg Bool.false_ne_true,
        named.1, named.2]
      rfl

/-- What is lost to a place in a tree is not found again further in. -/
theorem isInElement_append
    (outside : isInElement around = false)
    (nested : around ≠ [])
    (front : Trail (Item Place)) :
    isInElement (front ++ around) = false := by
  induction front with
  | nil =>
      exact outside
  | cons entry rest inductionHypothesis =>
      rw [List.cons_append, isInElement_cons, inductionHypothesis]
      split
      · rfl
      · rw [Bool.and_eq_false_iff, or_iff_not_imp_right, Bool.not_eq_false]
        intro named
        rw [isInElement_of_all named (by simp [nested])] at inductionHypothesis
        cases inductionHypothesis

/-- Nothing counts as lost in what is not in an element, or not right in it. -/
theorem filterMap_lost?_of_outside
    (outside : isInElement (entry :: around) = false)
    (items : List (Item Place)) :
    (trailsIn (entry :: around) 0 items).filterMap lost? = [] := by
  rw [List.filterMap_eq_nil_iff]
  intro trail member
  obtain ⟨front, number, inner, -, rfl⟩ :=
    (listing_trailsIn items (entry :: around) 0).exists_front member
  have inside := isInElement_append outside (List.cons_ne_nil _ _)
  cases front with
  | nil =>
      cases inner <;> simp [lost?, outside]
  | cons first others =>
      obtain ⟨count, node⟩ := first
      have enclosed : isInElement (others ++ (number, inner) :: entry :: around) = false := by
        simpa using inside (others ++ [(number, inner)])
      cases node <;> simp [lost?, enclosed]

end Around

end Item

namespace Trace

section Lost

variable {item : Item Place} {around : Trail (Item Place)}

/-- What is lost in an item is lost inside it, unless it is a declaration. -/
theorem filterMap_lost?_trails
    (index : Nat)
    (item : Item Place) :
    (item.trails around index).filterMap Item.lost? =
      (Item.lost? ((index, item) :: around)).toList ++
        (Item.trailsIn ((index, item) :: around) 0 item.children).filterMap Item.lost? := by
  rw [Item.trails_eq]
  cases lost : Item.lost? ((index, item) :: around) with
  | none =>
      rw [List.filterMap_cons_none lost]
      rfl
  | some property =>
      rw [List.filterMap_cons_some lost]
      rfl

theorem filterMap_dropped_declaration
    (stated : Declaration Place) :
    (dropped (.declaration stated)).filterMap Event.dropped? = stated.unused?.toList := by
  unfold dropped Declaration.unused?
  cases Property.ofText stated.property <;> rfl

/-- An element only looks for losses in declarations and in rules for attributes. -/
theorem dropped_rule
    (selector : Text)
    (children : List (Item Place))
    (place : Place) :
    dropped (.rule selector children place) =
      if (Item.rule selector children place).namesAttribute then droppedIn children else [] := by
  unfold dropped Item.namesAttribute
  cases stands : Selector.ofText selector <;> simp [stands]

mutual

/-- What is lost in an item that is not built is what the element around it drops. -/
theorem lost_eq_dropped
    (item : Item Place)
    (around : Trail (Item Place))
    (inElement : Item.isInElement around = true)
    (unbuilt :
      (item.namesElement && around.all fun outer => outer.2.namesElement) = false)
    (index : Nat) :
    (item.trails around index).filterMap Item.lost? =
      (dropped item).filterMap Event.dropped? := by
  rw [filterMap_lost?_trails]
  cases item with
  | declaration stated =>
      rw [filterMap_dropped_declaration, Item.lost?, if_pos inElement]
      exact List.append_nil _
  | rule selector children place =>
      rw [dropped_rule]
      have isInside := Item.isInElement_cons (index, .rule selector children place) around
      by_cases isAttribute : (Item.rule selector children place).namesAttribute = true
      · rw [if_pos isAttribute, inElement] at isInside
        rw [if_pos isAttribute]
        exact lost_eq_droppedIn children _ isInside
          (by rw [List.all_cons, Item.namesElement_of_namesAttribute isAttribute]; rfl) 0
      · rw [if_neg isAttribute, unbuilt] at isInside
        rw [if_neg isAttribute, Item.filterMap_lost?_of_outside isInside]
        rfl
  | atBlock name params children place =>
      rw [Item.filterMap_lost?_of_outside (by rw [Item.isInElement_cons]; rfl)]
      rfl
  | _ =>
      rfl

theorem lost_eq_droppedIn
    (items : List (Item Place))
    (around : Trail (Item Place))
    (inElement : Item.isInElement around = true)
    (unbuilt : (around.all fun outer => outer.2.namesElement) = false)
    (index : Nat) :
    (Item.trailsIn around index items).filterMap Item.lost? =
      (droppedIn items).filterMap Event.dropped? := by
  cases items with
  | nil =>
      rfl
  | cons item rest =>
      rw [Item.trailsIn, droppedIn, List.filterMap_append, List.filterMap_append,
        lost_eq_dropped item around inElement (by rw [unbuilt, Bool.and_false]) index,
        lost_eq_droppedIn rest around inElement unbuilt (index + 1)]

end

/-- Nothing is dropped of a rule that is built. -/
theorem dropped_of_namesElement
    (named : item.namesElement = true) :
    dropped item = [] := by
  cases item with
  | rule selector children place =>
      rw [dropped_rule, Item.namesAttribute_of_namesElement named, if_neg Bool.false_ne_true]
  | _ =>
      cases named

mutual

/-- What is lost in a rule for an element is lost while the element is built. -/
theorem lost_perm_ofItem
    (item : Item Place)
    (named : item.namesElement = true)
    (around : Trail (Item Place))
    (enclosed : (around.all fun outer => outer.2.namesElement) = true)
    (index : Nat) :
    ((item.trails around index).filterMap Item.lost?).Perm
      ((ofItem item).filterMap Event.dropped?) := by
  rw [filterMap_lost?_trails]
  cases item with
  | rule selector children place =>
      have stands : Selector.ofText selector = .element selector :=
        Selector.ofText_eq_element_iff.mpr ⟨named, rfl⟩
      have inner :=
        lost_perm_ofNested children ((index, .rule selector children place) :: around)
          (List.cons_ne_nil _ _) (by rw [List.all_cons, named, enclosed]; rfl) 0
      simp only [ofItem, stands]
      exact inner
  | _ =>
      cases named

/-- What is lost in the items of an element is what it drops or what its children lose. -/
theorem lost_perm_ofNested
    (items : List (Item Place))
    (around : Trail (Item Place))
    (nested : around ≠ [])
    (enclosed : (around.all fun outer => outer.2.namesElement) = true)
    (index : Nat) :
    ((Item.trailsIn around index items).filterMap Item.lost?).Perm
      ((droppedIn items ++ ofNested items).filterMap Event.dropped?) := by
  cases items with
  | nil =>
      exact .nil
  | cons item rest =>
      have others := lost_perm_ofNested rest around nested enclosed (index + 1)
      rw [Item.trailsIn, droppedIn, ofNested, List.filterMap_append, Element.isElementRule_eq]
      by_cases named : item.namesElement = true
      · have first := lost_perm_ofItem item named around enclosed index
        rw [dropped_of_namesElement named, List.nil_append, if_pos named]
        simp only [List.filterMap_append] at others ⊢
        exact (first.append others).trans (List.perm_append_comm_assoc ..)
      · have unnamed : item.namesElement = false := by
          simpa using named
        have inElement := Item.isInElement_of_all enclosed nested
        rw [if_neg named, lost_eq_dropped item around inElement (by rw [unnamed]; rfl) index,
          List.append_assoc, List.filterMap_append]
        exact others.append_left _

end

/-- Nothing is lost in an outermost item that is not built. -/
theorem filterMap_lost?_outermost
    (unnamed : item.namesElement = false)
    (index : Nat) :
    (item.trails [] index).filterMap Item.lost? = [] := by
  have outside : Item.isInElement [(index, item)] = false := by
    rw [Item.isInElement_cons, unnamed]
    split <;> rfl
  rw [filterMap_lost?_trails, Item.filterMap_lost?_of_outside outside]
  cases item <;> rfl

/-- No loss is told of an item that is not built. -/
theorem filterMap_dropped?_ofItem
    (unnamed : item.namesElement = false) :
    (ofItem item).filterMap Event.dropped? = [] := by
  cases item with
  | rule selector children place =>
      unfold ofItem
      split
      · rfl
      · next stands =>
          rw [Item.namesElement, (Selector.ofText_eq_element_iff.mp stands).1] at unnamed
          cases unnamed
      · rfl
      · rfl
  | _ =>
      rfl

/-- What is lost in a sheet is lost while its outermost elements are built. -/
theorem lost_perm_ofItems
    (items : List (Item Place))
    (index : Nat) :
    ((Item.trailsIn [] index items).filterMap Item.lost?).Perm
      ((items.flatMap ofItem).filterMap Event.dropped?) := by
  induction items generalizing index with
  | nil =>
      exact .nil
  | cons item rest inductionHypothesis =>
      rw [Item.trailsIn, List.flatMap_cons, List.filterMap_append, List.filterMap_append]
      refine List.Perm.append ?_ (inductionHypothesis (index + 1))
      by_cases named : item.namesElement = true
      · exact lost_perm_ofItem item named [] rfl index
      · have unnamed : item.namesElement = false := by
          simpa using named
        rw [filterMap_lost?_outermost unnamed, filterMap_dropped?_ofItem unnamed]

end Lost

section Omissions

mutual

theorem isOmission_of_mem_dropped
    (item : Item Place) :
    ∀ event ∈ dropped item, event.isOmission = true := by
  cases item with
  | declaration stated =>
      unfold dropped
      cases Property.ofText stated.property <;> simp [Event.isOmission]
  | rule selector children place =>
      rw [dropped_rule]
      split
      · exact isOmission_of_mem_droppedIn children
      · exact List.forall_mem_nil _
  | _ =>
      exact List.forall_mem_nil _

theorem isOmission_of_mem_droppedIn
    (items : List (Item Place)) :
    ∀ event ∈ droppedIn items, event.isOmission = true := by
  cases items with
  | nil =>
      exact List.forall_mem_nil _
  | cons item rest =>
      exact List.forall_mem_append.mpr
        ⟨isOmission_of_mem_dropped item, isOmission_of_mem_droppedIn rest⟩

end

mutual

/-- While elements are built only omissions are told. -/
theorem isOmission_of_mem_ofItem
    (item : Item Place) :
    ∀ event ∈ ofItem item, event.isOmission = true := by
  cases item with
  | rule selector children place =>
      unfold ofItem
      split
      · exact List.forall_mem_nil _
      · exact List.forall_mem_append.mpr
          ⟨isOmission_of_mem_droppedIn children, isOmission_of_mem_ofNested children⟩
      · exact List.forall_mem_singleton.mpr rfl
      · exact List.forall_mem_singleton.mpr rfl
  | _ =>
      exact List.forall_mem_nil _

theorem isOmission_of_mem_ofNested
    (items : List (Item Place)) :
    ∀ event ∈ ofNested items, event.isOmission = true := by
  cases items with
  | nil =>
      exact List.forall_mem_nil _
  | cons item rest =>
      rw [ofNested]
      split
      · exact List.forall_mem_append.mpr
          ⟨isOmission_of_mem_ofItem item, isOmission_of_mem_ofNested rest⟩
      · exact isOmission_of_mem_ofNested rest

end

end Omissions

section Redefinitions

variable (table : Variables) (declarations : List (Declaration Place))

theorem isRedefinition_of_mem_ofDeclarations :
    ∀ event ∈ ofDeclarations table declarations, event.isRedefinition = true := by
  induction declarations generalizing table with
  | nil =>
      exact List.forall_mem_nil _
  | cons stated rest inductionHypothesis =>
      refine List.forall_mem_append.mpr ⟨?_, inductionHypothesis (table.declare stated)⟩
      split
      · unfold ofDefinition
        split
        · exact List.forall_mem_nil _
        · exact List.forall_mem_singleton.mpr rfl
      · exact List.forall_mem_nil _

/-- A definition either makes a table larger or leaves a record. -/
theorem length_ofDefinition_add_size
    (name value : Text) :
    (ofDefinition table name value).length + (table.define name value).size =
      table.size + 1 := by
  rw [Variables.size_define]
  unfold ofDefinition
  cases table.get? (Variables.reference name) with
  | none =>
      exact Nat.zero_add _
  | some old =>
      exact Nat.add_comm 1 table.size

/-- The records of declarations and the names they add come to one for each definition. -/
theorem length_ofDeclarations_add_size :
    (ofDeclarations table declarations).length
        + (declarations.foldl Variables.declare table).size =
      table.size + (declarations.filterMap Declaration.definition?).length := by
  induction declarations generalizing table with
  | nil =>
      exact Nat.add_comm 0 _
  | cons stated rest inductionHypothesis =>
      have later := inductionHypothesis (table.declare stated)
      have one := length_ofDefinition_add_size table stated.property stated.value
      rw [ofDeclarations, List.foldl_cons, List.length_append, List.filterMap_cons]
      unfold Variables.declare Declaration.definition? at later ⊢
      by_cases custom : Property.isCustom stated.property = true
      · simp only [if_pos custom, List.length_cons] at later ⊢
        omega
      · simp only [if_neg custom, List.length_nil] at later ⊢
        omega

end Redefinitions

/--
What it means that a trace accounts for a sheet: it tells redefinitions, their number
missing from that of all definitions, then losses, one for each property that is lost, and
the outermost rules that stand for nothing, and last the number of outermost elements.
-/
def Accounts
    (items : List (Item Place))
    (trace : List Event) : Prop :=
  ∃ redefinitions count omissions,
    trace =
        redefinitions ++ .collected count :: omissions
          ++ [.compiled (Page.ofItems items).length] ∧
      (∀ event ∈ redefinitions, event.isRedefinition = true) ∧
        (∀ event ∈ omissions, event.isOmission = true) ∧
          redefinitions.length + count = (Item.definitionsIn items).length ∧
            (omissions.filterMap Event.dropped?).Perm (Item.lostIn items)

/-- The trace of a sheet accounts for all its definitions and all that is lost of it. -/
theorem accounts_ofItems
    (items : List (Item Place)) :
    Accounts items (ofItems items) := by
  refine ⟨ofDeclarations .empty (Item.declarationsIn items), (Variables.ofItems items).size,
    items.flatMap ofItem, ?_, isRedefinition_of_mem_ofDeclarations .empty _, ?_, ?_,
    (lost_perm_ofItems items 0).symm⟩
  · rw [ofItems, ofVariables, List.append_assoc (ofDeclarations _ _)]
    rfl
  · intro event member
    obtain ⟨item, -, inItem⟩ := List.mem_flatMap.mp member
    exact isOmission_of_mem_ofItem item event inItem
  · rw [Item.definitionsIn_eq_filterMap, Variables.ofItems, length_ofDeclarations_add_size]
    exact Nat.zero_add _

/-- Losses are told of rules for attributes in elements, but of nothing in or around others. -/
example :
    let lose (name : Char) : Item Unit := .declaration ⟨[name], [], ()⟩
    let title (items : List (Item Unit)) : Item Unit := .rule ['\\', 't'] items ()
    let sheet : List (Item Unit) :=
      [ lose 'k',
        title [lose 'l'],
        .rule ['p']
          [ .rule ['b'] [lose 'm', title [lose 'n', title [lose 'o']]] (),
            title [.rule ['b'] [lose 'q'] ()],
            .rule ['.', 'x'] [lose 'r'] (),
            lose 's' ] () ]
    Item.lostIn sheet = [['m'], ['n'], ['o'], ['s']] ∧
      (ofItems sheet).filterMap Event.dropped? = [['s'], ['m'], ['n'], ['o']] := by
  decide

end Trace

end PageSheet
