import PageSheet.Item.Basic
import PageSheet.Item.Fault
namespace PageSheet

/-!
# Preludes

A prelude is the list of lexemes before the block or the end of a statement.
Its text is its spelling without the white space at the ends; comments are gone
from it, because they have an empty spelling.

A declaration splits its prelude at the first colon that stands outside
parentheses.  A closing parenthesis with nothing open counts for nothing.
-/

namespace Prelude

/-- The text of a prelude. -/
def text (lexemes : List Lexeme) : Text :=
  Text.trim (Lexeme.spellings lexemes)

/-- The number of open parentheses behind one more lexeme. -/
def depthAfter (depth : Nat) : Lexeme → Nat
  | .leftParen => depth + 1
  | .rightParen => depth - 1
  | _ => depth

/--
The lexemes before and behind the first colon outside parentheses, for lexemes
that stand inside a number of open parentheses.
-/
def splitColon? : Nat → List Lexeme → Option (List Lexeme × List Lexeme)
  | _, [] => none
  | 0, .colon :: rest => some ([], rest)
  | depth, lexeme :: rest =>
      (splitColon? (depthAfter depth lexeme) rest).map fun (before, behind) =>
        (lexeme :: before, behind)

/--
The declaration that a prelude states.  A prelude without a colon, or with
nothing before its colon, states none; the failure is placed where the statement
starts.
-/
def declaration
    (lexemes : List Lexeme)
    (place : Place) :
    Except (Failure Fault Place) (Declaration Place) :=
  match splitColon? 0 lexemes with
  | none => .error ⟨.unknownWord (text lexemes), place⟩
  | some (before, behind) =>
      if text before = [] then
        .error ⟨.missingProperty, place⟩
      else
        .ok ⟨text before, text behind, place⟩

/-- A last lexeme that is no colon stays behind the colon, if there is one. -/
theorem splitColon?_concat
    {last : Lexeme}
    (notColon : last ≠ .colon)
    (depth : Nat)
    (lexemes : List Lexeme) :
    splitColon? depth (lexemes ++ [last]) =
      (splitColon? depth lexemes).map fun (before, behind) =>
        (before, behind ++ [last]) := by
  fun_induction splitColon? depth lexemes with
  | case1 depth =>
      rw [List.nil_append, splitColon?.eq_3 _ _ _ fun _ isColon => notColon isColon]
      rfl
  | case2 rest =>
      rfl
  | case3 depth lexeme rest notHere inductionHypothesis =>
      rw [List.cons_append, splitColon?.eq_3 _ _ _ notHere, inductionHypothesis,
        Option.map_map, Option.map_map]
      rfl

end Prelude

end PageSheet
