import PageSheet.Element.Basic
import PageSheet.Item.Basic
namespace PageSheet

/-!
# Trails

A trail leads from a node of a tree outwards to the node around it, to the one around
that, and so on, and has the number of each among its siblings.  So a trail tells a node
from all others, from equal ones as well.  The trails of a tree are listed in document
order, parents first, and none is listed twice.
-/

/-- A node and the nodes around it, the innermost first, each with its number. -/
abbrev Trail (Node : Type) := List (Nat × Node)

namespace Trail

variable {Node : Type} {around : Trail Node} {index : Nat} {trails : List (Trail Node)}

/--
What it means that a list has the trails of siblings, numbered from some number on, and
of all nodes in them, every node before what is in it.
-/
inductive Listing : Trail Node → Nat → List (Trail Node) → Prop
  | nil
      {around : Trail Node}
      {index : Nat} :
      Listing around index []
  | node
      {around : Trail Node}
      {index : Nat}
      {node : Node}
      {inside rest : List (Trail Node)}
      (inner : Listing ((index, node) :: around) 0 inside)
      (others : Listing around (index + 1) rest) :
      Listing around index (((index, node) :: around) :: inside ++ rest)

/-- Every trail of a listing comes by one of the siblings. -/
theorem Listing.exists_front
    (listing : Listing around index trails)
    {trail : Trail Node}
    (member : trail ∈ trails) :
    ∃ front number node,
      index ≤ number ∧ trail = front ++ (number, node) :: around := by
  induction listing with
  | nil =>
      cases member
  | @node around index node inside rest _ _ innerHypothesis othersHypothesis =>
      rcases List.mem_append.mp member with inHere | inRest
      · rcases List.mem_cons.mp inHere with rfl | inInside
        · exact ⟨[], index, node, Nat.le_refl index, rfl⟩
        · obtain ⟨front, number, child, -, rfl⟩ := innerHypothesis inInside
          exact ⟨front ++ [(number, child)], index, node, Nat.le_refl index, by simp⟩
      · obtain ⟨front, number, sibling, behind, rfl⟩ := othersHypothesis inRest
        exact ⟨front, number, sibling, Nat.le_of_succ_le behind, rfl⟩

/-- No trail is listed twice. -/
theorem Listing.nodup
    (listing : Listing around index trails) :
    trails.Nodup := by
  induction listing with
  | nil =>
      exact List.nodup_nil
  | @node around index node inside rest inner others innerHypothesis othersHypothesis =>
      have below :
          ∀ trail ∈ ((index, node) :: around) :: inside,
            ∃ front, trail = front ++ (index, node) :: around := by
        intro trail member
        rcases List.mem_cons.mp member with rfl | inInside
        · exact ⟨[], rfl⟩
        · obtain ⟨front, number, child, -, rfl⟩ := inner.exists_front inInside
          exact ⟨front ++ [(number, child)], by simp⟩
      have first : (index, node) :: around ∉ inside := by
        intro member
        obtain ⟨front, number, child, -, same⟩ := inner.exists_front member
        have lengths := congrArg List.length same
        simp only [List.length_append, List.length_cons] at lengths
        omega
      refine List.nodup_append.mpr
        ⟨List.nodup_cons.mpr ⟨first, innerHypothesis⟩, othersHypothesis, ?_⟩
      rintro trail inHere _ inRest rfl
      obtain ⟨front, rfl⟩ := below trail inHere
      obtain ⟨front', number, sibling, behind, same⟩ := others.exists_front inRest
      have ends := (List.append_inj' same rfl).2
      cases ends
      exact Nat.not_succ_le_self _ behind

end Trail

namespace Item

/-- The items right inside an item. -/
def children : Item Place → List (Item Place)
  | .rule _ children _ => children
  | .declaration _ => []
  | .atStatement .. => []
  | .atBlock _ _ children _ => children
  | .comment _ => []

mutual

/-- The trails of an item with some number and of all items in it. -/
def trails
    (around : Trail (Item Place))
    (index : Nat) :
    Item Place → List (Trail (Item Place))
  | .rule selector children place =>
      ((index, .rule selector children place) :: around)
        :: trailsIn ((index, .rule selector children place) :: around) 0 children
  | .declaration stated => [(index, .declaration stated) :: around]
  | .atStatement name params place => [(index, .atStatement name params place) :: around]
  | .atBlock name params children place =>
      ((index, .atBlock name params children place) :: around)
        :: trailsIn ((index, .atBlock name params children place) :: around) 0 children
  | .comment text => [(index, .comment text) :: around]

/-- The trails of items, numbered from some number on, and of all items in them. -/
def trailsIn
    (around : Trail (Item Place))
    (index : Nat) :
    List (Item Place) → List (Trail (Item Place))
  | [] => []
  | item :: rest => item.trails around index ++ trailsIn around (index + 1) rest

end

theorem trails_eq
    (around : Trail (Item Place))
    (index : Nat)
    (item : Item Place) :
    item.trails around index =
      ((index, item) :: around) :: trailsIn ((index, item) :: around) 0 item.children := by
  cases item <;> rfl

mutual

theorem listing_children
    (item : Item Place)
    (around : Trail (Item Place)) :
    Trail.Listing around 0 (trailsIn around 0 item.children) := by
  cases item with
  | rule selector children place =>
      exact listing_trailsIn children around 0
  | atBlock name params children place =>
      exact listing_trailsIn children around 0
  | _ =>
      exact .nil

theorem listing_trailsIn
    (items : List (Item Place))
    (around : Trail (Item Place))
    (index : Nat) :
    Trail.Listing around index (trailsIn around index items) := by
  cases items with
  | nil =>
      exact .nil
  | cons item rest =>
      rw [trailsIn, trails_eq]
      exact .node (listing_children item _) (listing_trailsIn rest around (index + 1))

end

/-- The declaration that a trail leads from. -/
def stated? : Trail (Item Place) → Option (Declaration Place)
  | (_, .declaration stated) :: _ => some stated
  | _ => none

mutual

theorem filterMap_stated?_trails
    (item : Item Place)
    (around : Trail (Item Place))
    (index : Nat) :
    (item.trails around index).filterMap stated? = item.declarations := by
  cases item with
  | rule selector children place =>
      exact filterMap_stated?_trailsIn children _ 0
  | atBlock name params children place =>
      exact filterMap_stated?_trailsIn children _ 0
  | _ =>
      rfl

/-- The declarations of a tree are what its trails lead from, in the same order. -/
theorem filterMap_stated?_trailsIn
    (items : List (Item Place))
    (around : Trail (Item Place))
    (index : Nat) :
    (trailsIn around index items).filterMap stated? = declarationsIn items := by
  cases items with
  | nil =>
      rfl
  | cons item rest =>
      rw [trailsIn, List.filterMap_append, filterMap_stated?_trails item around index,
        filterMap_stated?_trailsIn rest around (index + 1), declarationsIn]

end

end Item

namespace Element

mutual

/-- The trails of an element with some number and of all elements in it. -/
def trails
    (around : Trail Element)
    (index : Nat) :
    Element → List (Trail Element)
  | ⟨tag, attributes, content, children⟩ =>
      ((index, ⟨tag, attributes, content, children⟩) :: around)
        :: trailsInside ((index, ⟨tag, attributes, content, children⟩) :: around) children

/-- The trails of the children of an element and of all elements in them. -/
def trailsInside (around : Trail Element) : Option (List Element) → List (Trail Element)
  | none => []
  | some children => trailsIn around 0 children

/-- The trails of elements, numbered from some number on, and of all elements in them. -/
def trailsIn
    (around : Trail Element)
    (index : Nat) :
    List Element → List (Trail Element)
  | [] => []
  | element :: rest => element.trails around index ++ trailsIn around (index + 1) rest

end

theorem trails_eq
    (around : Trail Element)
    (index : Nat)
    (element : Element) :
    element.trails around index =
      ((index, element) :: around)
        :: trailsInside ((index, element) :: around) element.children := by
  cases element
  rfl

mutual

theorem listing_trailsInside
    (element : Element)
    (around : Trail Element) :
    Trail.Listing around 0 (trailsInside around element.children) := by
  match element with
  | ⟨_, _, _, none⟩ =>
      exact .nil
  | ⟨_, _, _, some children⟩ =>
      exact listing_trailsIn children around 0

theorem listing_trailsIn
    (elements : List Element)
    (around : Trail Element)
    (index : Nat) :
    Trail.Listing around index (trailsIn around index elements) := by
  match elements with
  | [] =>
      exact .nil
  | element :: rest =>
      rw [trailsIn, trails_eq]
      exact .node (listing_trailsInside element _) (listing_trailsIn rest around (index + 1))

end

end Element

end PageSheet
