import PageSheet.Text.Basic
namespace PageSheet

/-!
# Items of a style sheet

A style sheet is a list of items.  Rules and at-rules with a block hold items in
turn.  Every item but a comment carries a description of its place, of a type
that is left open as it is for tokens: a sheet that was parsed carries spans, a
sheet that was put together by hand carries nothing.

The functions on one item come with their twins on a list of items, and the twin
is always the concatenation over the list.
-/

/-- A property with its value. -/
structure Declaration (Place : Type) where
  property : Text
  value : Text
  place : Place
  deriving Repr, DecidableEq

/-- One item of a style sheet. -/
inductive Item (Place : Type) where
  | rule (selector : Text) (children : List (Item Place)) (place : Place)
  | declaration (declaration : Declaration Place)
  /-- An at-rule that ends without a block. -/
  | atStatement (name : Text) (params : Text) (place : Place)
  /-- An at-rule with a block. -/
  | atBlock (name : Text) (params : Text) (children : List (Item Place)) (place : Place)
  | comment (text : Text)
  deriving Repr

namespace Item

mutual

/-- The declarations of an item at any depth, in document order. -/
def declarations : Item Place → List (Declaration Place)
  | .rule _ children _ => declarationsIn children
  | .declaration stated => [stated]
  | .atStatement .. => []
  | .atBlock _ _ children _ => declarationsIn children
  | .comment _ => []

/-- The declarations of a list of items at any depth, in document order. -/
def declarationsIn : List (Item Place) → List (Declaration Place)
  | [] => []
  | item :: rest => item.declarations ++ declarationsIn rest

end

/-- The declarations of a list are those of its members in a row. -/
theorem declarationsIn_eq_flatMap
    (items : List (Item Place)) :
    declarationsIn items = items.flatMap declarations := by
  induction items with
  | nil =>
      rfl
  | cons item rest inductionHypothesis =>
      rw [declarationsIn, inductionHypothesis, List.flatMap_cons]

end Item

end PageSheet
