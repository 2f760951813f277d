import Mathlib.Data.List.TakeWhile
import PageSheet.Element.Html
import PageSheet.Proofs.Words
namespace PageSheet

/-!
# Attributes in markup

The attributes of a tag are told apart from each other, and from what ends the tag, where
no name and no value has a character that ends it: a name runs up to the first equals
sign, a quoted value up to the next quote and any other value up to a blank or to the
bracket that closes the tag.
-/

namespace Text

/-- A run of characters that pass a test is told from what follows by one that does not. -/
theorem append_inj_of_stop
    {passes : Char → Bool}
    {run run' rest rest' : Text}
    {stop stop' : Char}
    (all : ∀ c ∈ run, passes c = true)
    (all' : ∀ c ∈ run', passes c = true)
    (stops : passes stop = false)
    (stops' : passes stop' = false)
    (same : run ++ stop :: rest = run' ++ stop' :: rest') :
    run = run' ∧ stop :: rest = stop' :: rest' := by
  have taken :
      ∀ {part : Text} {c : Char} {behind : Text},
        (∀ d ∈ part, passes d = true) → passes c = false →
          (part ++ c :: behind).takeWhile passes = part := by
    intro part c behind holds fails
    rw [List.takeWhile_append_of_pos holds, List.takeWhile_cons_of_neg (by simp [fails]),
      List.append_nil]
  have runs : run = run' := by
    rw [← taken all stops, same, taken all' stops']
  subst runs
  exact ⟨rfl, List.append_cancel_left same⟩

end Text

namespace Attribute

/-- Whether a character can stand between double quotes. -/
def isInner (c : Char) : Bool :=
  c ≠ '\x22' && c ≠ '<' && c ≠ '>'

/-- Whether a value is a text in double quotes that holds none, and no angle bracket. -/
def isQuoted : Text → Bool
  | '\x22' :: rest => rest.dropWhile isInner = ['\x22']
  | _ => false

/-- Whether a value has no blank, no double quote and no angle bracket. -/
def isUnquoted (value : Text) : Bool :=
  value.all fun c => c ≠ ' ' && isInner c

/-- Whether an attribute can be read back from markup. -/
def isLegible (given : Attribute) : Bool :=
  isName given.name && (isQuoted given.value || isUnquoted given.value)

/-- Whether a character stands behind the value of an attribute. -/
def endsValue (c : Char) : Bool :=
  c = ' ' || c = '>'

theorem exists_of_isQuoted
    {value : Text}
    (quoted : isQuoted value = true) :
    ∃ inner,
      value = '\x22' :: (inner ++ ['\x22']) ∧ ∀ c ∈ inner, isInner c = true := by
  unfold isQuoted at quoted
  split at quoted
  · next rest =>
      have ends := of_decide_eq_true quoted
      have whole := @List.takeWhile_append_dropWhile _ isInner rest
      rw [ends] at whole
      exact ⟨_, congrArg _ whole.symm, fun c member => List.mem_takeWhile_imp member⟩
  · cases quoted

/-- An unquoted value does not start like a quoted one, whatever stands behind it. -/
theorem head_ne_of_isUnquoted
    {value : Text}
    (unquoted : isUnquoted value = true)
    {stop : Char}
    (ends : endsValue stop = true)
    (rest : Text) :
    (value ++ stop :: rest).head? ≠ some '\x22' := by
  cases value with
  | nil =>
      rintro isQuote
      cases isQuote
      cases ends
  | cons c others =>
      rintro isQuote
      cases isQuote
      cases unquoted

/-- A value is told from what stands behind it. -/
theorem value_append_inj
    {value value' : Text}
    (legible : (isQuoted value || isUnquoted value) = true)
    (legible' : (isQuoted value' || isUnquoted value') = true)
    {stop stop' : Char}
    (ends : endsValue stop = true)
    (ends' : endsValue stop' = true)
    {rest rest' : Text}
    (same : value ++ stop :: rest = value' ++ stop' :: rest') :
    value = value' ∧ stop :: rest = stop' :: rest' := by
  rcases Bool.or_eq_true_iff.mp legible with quoted | unquoted <;>
    rcases Bool.or_eq_true_iff.mp legible' with quoted' | unquoted'
  · obtain ⟨inner, rfl, inside⟩ := exists_of_isQuoted quoted
    obtain ⟨inner', rfl, inside'⟩ := exists_of_isQuoted quoted'
    simp only [List.cons_append, List.append_assoc, List.nil_append, List.cons.injEq,
      true_and] at same
    obtain ⟨inners, behind⟩ := Text.append_inj_of_stop inside inside' rfl rfl same
    exact ⟨by rw [inners], (List.cons.inj behind).2⟩
  · obtain ⟨inner, rfl, -⟩ := exists_of_isQuoted quoted
    have differs := head_ne_of_isUnquoted unquoted' ends' rest'
    rw [← same] at differs
    exact absurd rfl differs
  · obtain ⟨inner, rfl, -⟩ := exists_of_isQuoted quoted'
    have differs := head_ne_of_isUnquoted unquoted ends rest
    rw [same] at differs
    exact absurd rfl differs
  · have stops :
        ∀ {c : Char}, endsValue c = true →
          (c ≠ ' ' && isInner c) = false := by
      intro c isEnd
      simp only [endsValue, Bool.or_eq_true, decide_eq_true_eq] at isEnd
      rcases isEnd with rfl | rfl <;> rfl
    exact Text.append_inj_of_stop (List.all_eq_true.mp unquoted)
      (List.all_eq_true.mp unquoted') (stops ends) (stops ends') same

/-- Whether a text goes on behind the attributes of a tag. -/
inductive EndsAttributes : Text → Prop
  | opens (rest : Text) : EndsAttributes ('>' :: rest)
  | closes (rest : Text) : EndsAttributes (' ' :: '/' :: rest)

/-- What stands behind a value is another attribute or the end of the attributes. -/
theorem exists_endsValue
    (attributes : List Attribute)
    {rest : Text}
    (ends : EndsAttributes rest) :
    ∃ c others,
      attributes.flatMap Element.attributeHtml ++ rest = c :: others ∧ endsValue c = true := by
  cases attributes with
  | nil =>
      cases ends with
      | opens others =>
          exact ⟨'>', others, rfl, rfl⟩
      | closes others =>
          exact ⟨' ', '/' :: others, rfl, rfl⟩
  | cons given others =>
      exact ⟨' ', _, rfl, rfl⟩

section Legible

variable {given given' : Attribute}

/-- The markup of a legible attribute has its name as it is. -/
theorem attributeHtml_eq
    (legible : given.isLegible = true) :
    Element.attributeHtml given = ' ' :: (given.name ++ '=' :: given.value) := by
  rw [isLegible, Bool.and_eq_true] at legible
  have unmarked : given.name.head? ≠ some marker := by
    intro marked
    have named := legible.1
    rw [isName, Bool.and_eq_true, List.all_eq_true] at named
    exact absurd (named.2 marker (List.mem_of_mem_head? marked)) (by decide)
  rw [Element.attributeHtml, bareName_of_unmarked unmarked]
  rfl

/-- The end of the attributes is no attribute. -/
theorem attributeHtml_append_ne
    (legible : given.isLegible = true)
    (behind : Text)
    {rest : Text}
    (ends : EndsAttributes rest) :
    Element.attributeHtml given ++ behind ≠ rest := by
  rw [attributeHtml_eq legible]
  rw [isLegible, Bool.and_eq_true, isName, Bool.and_eq_true, List.all_eq_true] at legible
  obtain ⟨⟨inhabited, named⟩, -⟩ := legible
  rintro rfl
  cases shape : given.name with
  | nil =>
      rw [shape] at inhabited
      cases inhabited
  | cons c others =>
      have isSlash : c = '/' := by
        rw [shape] at ends
        cases ends
        rfl
      have first := named c (by rw [shape]; exact List.mem_cons_self)
      rw [isSlash] at first
      cases first

/-- An attribute is told from what stands behind it. -/
theorem attributeHtml_append_inj
    (legible : given.isLegible = true)
    (legible' : given'.isLegible = true)
    {stop stop' : Char}
    (ends : endsValue stop = true)
    (ends' : endsValue stop' = true)
    {rest rest' : Text}
    (same :
      Element.attributeHtml given ++ stop :: rest =
        Element.attributeHtml given' ++ stop' :: rest') :
    given = given' ∧ stop :: rest = stop' :: rest' := by
  rw [attributeHtml_eq legible, attributeHtml_eq legible'] at same
  simp only [List.cons_append, List.append_assoc, List.cons.injEq, true_and] at same
  rw [isLegible, Bool.and_eq_true, isName, Bool.and_eq_true, List.all_eq_true]
    at legible legible'
  obtain ⟨names, behind⟩ :=
    Text.append_inj_of_stop legible.1.2 legible'.1.2 rfl rfl same
  obtain ⟨values, rests⟩ :=
    value_append_inj legible.2 legible'.2 ends ends' (List.cons.inj behind).2
  exact ⟨congr (congrArg Attribute.mk names) values, rests⟩

end Legible

/-- The attributes of a tag are told from what stands behind them. -/
theorem attributes_append_inj
    {attributes attributes' : List Attribute}
    (legible : attributes.all isLegible = true)
    (legible' : attributes'.all isLegible = true)
    {rest rest' : Text}
    (ends : EndsAttributes rest)
    (ends' : EndsAttributes rest')
    (same :
      attributes.flatMap Element.attributeHtml ++ rest =
        attributes'.flatMap Element.attributeHtml ++ rest') :
    attributes = attributes' ∧ rest = rest' := by
  induction attributes generalizing attributes' with
  | nil =>
      cases attributes' with
      | nil =>
          exact ⟨rfl, same⟩
      | cons given' others' =>
          rw [List.all_cons, Bool.and_eq_true] at legible'
          rw [List.flatMap_cons, List.append_assoc] at same
          exact absurd same.symm (attributeHtml_append_ne legible'.1 _ ends)
  | cons given others inductionHypothesis =>
      rw [List.all_cons, Bool.and_eq_true] at legible
      cases attributes' with
      | nil =>
          rw [List.flatMap_cons, List.append_assoc] at same
          exact absurd same (attributeHtml_append_ne legible.1 _ ends')
      | cons given' others' =>
          rw [List.all_cons, Bool.and_eq_true] at legible'
          obtain ⟨stop, behind, shape, isEnd⟩ := exists_endsValue others ends
          obtain ⟨stop', behind', shape', isEnd'⟩ := exists_endsValue others' ends'
          rw [List.flatMap_cons, List.flatMap_cons, List.append_assoc, List.append_assoc,
            shape, shape'] at same
          obtain ⟨first, tails⟩ :=
            attributeHtml_append_inj legible.1 legible'.1 isEnd isEnd' same
          rw [← shape, ← shape'] at tails
          obtain ⟨later, rests⟩ := inductionHypothesis legible.2 legible'.2 tails
          exact ⟨by rw [first, later], rests⟩

end Attribute

end PageSheet
