import PageSheet.Variables
namespace PageSheet

/-!
# The last definition counts

The table of a sheet finds for a reference the value of the last declaration of its
name, wherever in the sheet that stands, and finds nothing for any other text.
-/

/-- The value of the last declaration of a property. -/
def Declaration.lastValue?
    (declarations : List (Declaration Place))
    (property : Text) :
    Option Text :=
  ((declarations.filter fun stated => stated.property = property).getLast?).map
    Declaration.value

@[simp] theorem Declaration.lastValue?_nil
    (property : Text) :
    lastValue? ([] : List (Declaration Place)) property = none :=
  rfl

/-- A later declaration of the same property is asked first. -/
theorem Declaration.lastValue?_cons
    (stated : Declaration Place)
    (rest : List (Declaration Place))
    (property : Text) :
    lastValue? (stated :: rest) property =
      (lastValue? rest property).or
        (if stated.property = property then some stated.value else none) := by
  unfold lastValue?
  by_cases same : stated.property = property
  · rw [List.filter_cons_of_pos (by simpa using same), List.getLast?_cons, if_pos same]
    cases (rest.filter fun stated => stated.property = property).getLast? <;> rfl
  · rw [List.filter_cons_of_neg (by simpa using same), if_neg same, Option.or_none]

namespace Variables

/-- The custom property that a text refers to, if it is exactly a reference to one. -/
def referent? (text : Text) : Option Text :=
  let name := (text.drop 4).dropLast
  if Property.isCustom name && text = reference name then some name else none

theorem referent?_eq_some_iff
    {text name : Text} :
    referent? text = some name ↔
      Property.isCustom name = true ∧ text = reference name := by
  have inside : ((reference name).drop 4).dropLast = name := by
    simp [reference]
  simp only [referent?, Bool.and_eq_true, decide_eq_true_eq, Option.ite_none_right_eq_some,
    Option.some.injEq]
  constructor
  · rintro ⟨⟨custom, same⟩, rfl⟩
    exact ⟨custom, same⟩
  · rintro ⟨custom, rfl⟩
    rw [inside]
    exact ⟨⟨custom, rfl⟩, rfl⟩

theorem isReference_reference
    {name : Text}
    (custom : Property.isCustom name = true) :
    isReference (reference name) = true := by
  obtain ⟨rest, rfl⟩ := List.isPrefixOf_iff_prefix.mp custom
  rfl

/-- A declaration changes what is found for the reference to its custom property. -/
theorem get?_declare
    (table : Variables)
    (stated : Declaration Place)
    (text : Text) :
    (table.declare stated).get? text =
      if referent? text = some stated.property then
        some stated.value
      else
        table.get? text := by
  simp only [referent?_eq_some_iff]
  unfold declare
  by_cases custom : Property.isCustom stated.property = true
  · simp only [custom, if_true, true_and, get?_define]
  · simp only [custom, Bool.false_eq_true, if_false, false_and]

/-- What is found after declarations is what the last of them says, or what was there. -/
theorem get?_foldl_declare
    (table : Variables)
    (declarations : List (Declaration Place))
    (text : Text) :
    (declarations.foldl declare table).get? text =
      ((referent? text).bind (Declaration.lastValue? declarations)).or (table.get? text) := by
  induction declarations generalizing table with
  | nil =>
      cases referent? text <;> rfl
  | cons stated rest inductionHypothesis =>
      rw [List.foldl_cons, inductionHypothesis, get?_declare]
      cases shape : referent? text with
      | none =>
          rfl
      | some name =>
          simp only [Option.bind_some, Declaration.lastValue?_cons, Option.some.injEq,
            Option.or_assoc]
          by_cases same : stated.property = name
          · rw [if_pos same, if_pos same.symm, Option.some_or]
          · rw [if_neg same, if_neg (Ne.symm same), Option.none_or]

/-- The table of a sheet holds the last value of every custom property, and no other. -/
theorem get?_ofItems
    (items : List (Item Place))
    (text : Text) :
    (ofItems items).get? text =
      (referent? text).bind (Declaration.lastValue? (Item.declarationsIn items)) := by
  rw [ofItems, get?_foldl_declare, get?_empty, Option.or_none]

end Variables

end PageSheet
