import PageSheet.Item.Parse
namespace PageSheet

/-!
# The grammar of style sheets

The depth of a lexeme is the number of parentheses that are open before it, where
a closing parenthesis with nothing open counts for nothing.  A prelude is a list
of lexemes that stays clear of terminators at depth zero and ends at depth zero.

The grammar tells which lists of lexemes are style sheets, and of which items.
It does not take lexemes one by one: its productions speak of whole preludes and
whole blocks.
-/

namespace Prelude

/-- The number of open parentheses behind some lexemes. -/
def depthBehind
    (depth : Nat)
    (lexemes : List Lexeme) :
    Nat :=
  lexemes.foldl depthAfter depth

/--
Whether lexemes that stand inside a number of open parentheses have no lexeme of
a kind outside all parentheses.
-/
def shelters
    (kind : Lexeme → Bool) :
    Nat → List Lexeme → Bool
  | _, [] => true
  | depth, lexeme :: rest =>
      (depth != 0 || !kind lexeme) && shelters kind (depthAfter depth lexeme) rest

/-- Whether a lexeme ends a statement where it stands outside parentheses. -/
def isTerminator : Lexeme → Bool
  | .leftBrace => true
  | .semicolon => true
  | .rightBrace => true
  | _ => false

/-- Whether a lexeme is a colon. -/
def isColon : Lexeme → Bool
  | .colon => true
  | _ => false

/-- Whether lexemes are the prelude of a statement. -/
def isPrelude (lexemes : List Lexeme) : Bool :=
  shelters isTerminator 0 lexemes && depthBehind 0 lexemes == 0

/-- What it means that lexemes divide at their first colon outside parentheses. -/
structure Divides (lexemes before behind : List Lexeme) : Prop where
  whole : lexemes = before ++ .colon :: behind
  outside : depthBehind 0 before = 0
  first : shelters isColon 0 before = true

end Prelude

/-- Whether a lexeme can be the first one of a rule or a declaration. -/
def Lexeme.opensStatement : Lexeme → Bool
  | .whitespace _ => false
  | .comment _ => false
  | .atWord _ => false
  | .endOfSource => false
  | _ => true

open Prelude

/-- The lexemes before a block, with the header that they are. -/
inductive Heads : List Lexeme → Header Unit → Prop where
  | atBlock
      {name : Text}
      {prelude : List Lexeme} :
      isPrelude prelude = true →
      Heads (.atWord name :: prelude) (.atBlock name (text prelude) ())
  | rule
      {first : Lexeme}
      {rest : List Lexeme} :
      first.opensStatement = true →
      isPrelude (first :: rest) = true →
      text (first :: rest) ≠ [] →
      Heads (first :: rest) (.rule (text (first :: rest)) ())

/-- The lexemes of a statement without a block, with the item that it is. -/
inductive States : List Lexeme → Item Unit → Prop where
  | atStatement
      {name : Text}
      {prelude : List Lexeme} :
      isPrelude prelude = true →
      States (.atWord name :: prelude) (.atStatement name (text prelude) ())
  | declaration
      {first : Lexeme}
      {rest before behind : List Lexeme} :
      first.opensStatement = true →
      isPrelude (first :: rest) = true →
      Divides (first :: rest) before behind →
      text before ≠ [] →
      States (first :: rest) (.declaration ⟨text before, text behind, ()⟩)

/-- The lexemes of a style sheet or of a block, with the items that they are. -/
inductive Grammar : List Lexeme → List (Item Unit) → Prop where
  | nil :
      Grammar [] []
  | whitespace
      {blanks : Text}
      {rest : List Lexeme}
      {items : List (Item Unit)} :
      Grammar rest items →
      Grammar (.whitespace blanks :: rest) items
  | comment
      {body : Text}
      {rest : List Lexeme}
      {items : List (Item Unit)} :
      Grammar rest items →
      Grammar (.comment body :: rest) (.comment body :: items)
  | separator
      {rest : List Lexeme}
      {items : List (Item Unit)} :
      Grammar rest items →
      Grammar (.semicolon :: rest) items
  | statement
      {lexemes rest : List Lexeme}
      {item : Item Unit}
      {items : List (Item Unit)} :
      States lexemes item →
      Grammar rest items →
      Grammar (lexemes ++ .semicolon :: rest) (item :: items)
  | lastStatement
      {lexemes : List Lexeme}
      {item : Item Unit} :
      States lexemes item →
      Grammar lexemes [item]
  | block
      {lexemes inner rest : List Lexeme}
      {header : Header Unit}
      {children items : List (Item Unit)} :
      Heads lexemes header →
      Grammar inner children →
      Grammar rest items →
      Grammar (lexemes ++ .leftBrace :: (inner ++ .rightBrace :: rest))
        (header.enclose children :: items)

namespace Prelude

theorem depthBehind_append
    (depth : Nat)
    (first second : List Lexeme) :
    depthBehind depth (first ++ second) =
      depthBehind (depthBehind depth first) second :=
  List.foldl_append

theorem shelters_append
    (kind : Lexeme → Bool)
    (depth : Nat)
    (first second : List Lexeme) :
    shelters kind depth (first ++ second) =
      (shelters kind depth first &&
        shelters kind (depthBehind depth first) second) := by
  induction first generalizing depth with
  | nil =>
      rfl
  | cons lexeme rest inductionHypothesis =>
      simp only [List.cons_append, shelters, inductionHypothesis, Bool.and_assoc]
      rfl

/-- Preludes in a row are a prelude. -/
theorem isPrelude_append
    {first second : List Lexeme}
    (one : isPrelude first = true)
    (two : isPrelude second = true) :
    isPrelude (first ++ second) = true := by
  simp only [isPrelude, Bool.and_eq_true, beq_iff_eq] at one two ⊢
  rw [shelters_append, depthBehind_append, one.2]
  exact ⟨by simp [one.1, two.1], two.2⟩

/-- Splitting finds the first colon outside parentheses, at any depth. -/
theorem splitColon?_eq_some_iff
    {depth : Nat}
    {lexemes before behind : List Lexeme} :
    splitColon? depth lexemes = some (before, behind) ↔
      lexemes = before ++ .colon :: behind ∧
        depthBehind depth before = 0 ∧
          shelters isColon depth before = true := by
  fun_induction splitColon? depth lexemes generalizing before behind with
  | case1 =>
      simp
  | case2 rest =>
      constructor
      · intro split
        cases split
        exact ⟨rfl, rfl, rfl⟩
      · rintro ⟨whole, _, sheltered⟩
        cases before with
        | nil =>
            cases whole
            rfl
        | cons lexeme others =>
            cases whole
            cases sheltered
  | case3 depth lexeme rest notHere inductionHypothesis =>
      have hidden : (depth != 0 || !isColon lexeme) = true := by
        cases lexeme with
        | colon =>
            have inside : depth ≠ 0 := fun outside => notHere outside rfl
            simp [inside]
        | _ =>
            simp [isColon]
      constructor
      · intro split
        obtain ⟨⟨inner, outer⟩, inside, shape⟩ := Option.map_eq_some_iff.mp split
        cases shape
        obtain ⟨rfl, outside, sheltered⟩ := inductionHypothesis.mp inside
        refine ⟨rfl, outside, ?_⟩
        rw [shelters, hidden, sheltered]
        rfl
      · rintro ⟨whole, outside, sheltered⟩
        cases before with
        | nil =>
            cases whole
            exact (notHere outside rfl).elim
        | cons first others =>
            cases whole
            rw [shelters, hidden, Bool.true_and] at sheltered
            rw [inductionHypothesis.mpr ⟨rfl, outside, sheltered⟩]
            rfl

end Prelude

end PageSheet
