import Mathlib.Data.Finset.Card
import Mathlib.Data.List.Induction
import PageSheet.Proofs.LastDefinitions
import PageSheet.Proofs.Trails
namespace PageSheet

/-!
# Sequences of definitions

A table is made by definitions one after the other.  Those of a sheet are its custom
properties at any depth, in document order.  What a table holds is told by the sequence
alone: for every name that it defines the last value, and nothing for any other text.
Names are arbitrary texts, but only references to custom properties are ever replaced.
-/

/-- The name and the value that a declaration defines, if it declares a custom property. -/
def Declaration.definition? (stated : Declaration Place) : Option (Text × Text) :=
  if Property.isCustom stated.property then
    some (stated.property, stated.value)
  else
    none

/-- The definitions of a sheet at any depth, in document order. -/
def Item.definitionsIn (items : List (Item Place)) : List (Text × Text) :=
  (trailsIn [] 0 items).filterMap fun trail => (stated? trail).bind Declaration.definition?

theorem Item.definitionsIn_eq_filterMap
    (items : List (Item Place)) :
    definitionsIn items = (declarationsIn items).filterMap Declaration.definition? := by
  rw [← filterMap_stated?_trailsIn items [] 0, List.filterMap_filterMap]
  rfl

namespace Variables

/-- The table that a sequence of definitions makes. -/
def ofDefinitions (definitions : List (Text × Text)) : Variables :=
  definitions.foldl (fun table definition => table.define definition.1 definition.2) empty

/-- What it means that the last definition of a name in a sequence gives it a value. -/
def IsLast
    (definitions : List (Text × Text))
    (name value : Text) : Prop :=
  ∃ before after,
    definitions = before ++ (name, value) :: after ∧ name ∉ after.map Prod.fst

/-- What it means that a table holds the last values of a sequence of definitions. -/
structure HoldsLast
    (table : Variables)
    (definitions : List (Text × Text)) : Prop where
  /-- The last value of a name is found at the reference to it, and nothing else is. -/
  found :
    ∀ text value,
      table.get? text = some value ↔
        ∃ name, text = reference name ∧ IsLast definitions name value
  /-- Every name counts once. -/
  count : table.size = (definitions.map Prod.fst).toFinset.card
  /-- Only references to custom properties are replaced, and not by nothing. -/
  replaced :
    ∀ raw,
      table.resolve raw ≠ raw ↔
        ∃ name value,
          raw = reference name ∧ Property.isCustom name = true ∧
            IsLast definitions name value ∧ value ≠ [] ∧ value ≠ raw
  /-- They are replaced by the last value. -/
  replacement :
    ∀ name value,
      Property.isCustom name = true → IsLast definitions name value → value ≠ [] →
        table.resolve (reference name) = value

section Tables

variable {table : Variables} {name value text raw : Text}

theorem mem_references_iff :
    text ∈ table.entries.map Prod.fst ↔ (table.get? text).isSome = true :=
  (KeyedList.isSome_lookup_iff text table.entries).symm

/-- The size of a table is the number of references at which something is found. -/
theorem size_eq_card
    (table : Variables) :
    table.size = (table.entries.map Prod.fst).toFinset.card := by
  rw [List.toFinset_card_of_nodup table.distinct, List.length_map]
  rfl

/-- A definition makes a table larger, unless the name is defined already. -/
theorem size_define
    (table : Variables)
    (name value : Text) :
    (table.define name value).size =
      if (table.get? (reference name)).isSome then table.size else table.size + 1 := by
  have references :
      ((table.define name value).entries.map Prod.fst).toFinset =
        insert (reference name) (table.entries.map Prod.fst).toFinset := by
    ext text
    rw [Finset.mem_insert, List.mem_toFinset, List.mem_toFinset, mem_references_iff,
      mem_references_iff, get?_define]
    split <;> simp [*]
  rw [size_eq_card, references, Finset.card_insert_eq_ite, ← size_eq_card]
  simp only [List.mem_toFinset, mem_references_iff]

theorem isReference_reference_iff :
    isReference (reference name) = true ↔ Property.isCustom name = true := by
  refine ⟨fun refers => ?_, isReference_reference⟩
  match name with
  | [] =>
      cases refers
  | [c] =>
      simp [isReference, reference, List.isPrefixOf] at refers
  | c :: d :: rest =>
      simpa [isReference, reference, Property.isCustom, List.isPrefixOf] using refers

/-- A text is replaced by what is found for it, if it looks like a reference. -/
theorem resolve_of_get?
    (refers : isReference raw = true)
    (isFound : table.get? raw = some value)
    (inhabited : value ≠ []) :
    table.resolve raw = value := by
  rw [resolve, if_pos refers, isFound]
  cases value with
  | nil =>
      exact absurd rfl inhabited
  | cons c rest =>
      rfl

theorem resolve_ne_iff :
    table.resolve raw ≠ raw ↔
      isReference raw = true ∧
        ∃ value, table.get? raw = some value ∧ value ≠ [] ∧ value ≠ raw := by
  constructor
  · intro changed
    rw [resolve] at changed
    split at changed
    · next refers =>
        refine ⟨refers, ?_⟩
        cases isFound : table.get? raw with
        | none =>
            rw [isFound] at changed
            exact absurd rfl changed
        | some value =>
            cases value with
            | nil =>
                rw [isFound] at changed
                exact absurd rfl changed
            | cons c rest =>
                rw [isFound] at changed
                exact ⟨c :: rest, rfl, List.cons_ne_nil c rest, changed⟩
    · exact absurd rfl changed
  · rintro ⟨refers, value, isFound, inhabited, differs⟩
    rw [resolve_of_get? refers isFound inhabited]
    exact differs

end Tables

section Sequences

variable {definitions : List (Text × Text)} {name value : Text}

theorem ofDefinitions_concat
    (definitions : List (Text × Text))
    (name value : Text) :
    ofDefinitions (definitions ++ [(name, value)]) =
      (ofDefinitions definitions).define name value :=
  List.foldl_concat ..

theorem not_isLast_nil : ¬ IsLast [] name value := by
  rintro ⟨before, after, same, -⟩
  simp at same

/-- Behind one more definition the last value is its own, or as before for other names. -/
theorem isLast_concat_iff
    {last : Text × Text} :
    IsLast (definitions ++ [last]) name value ↔
      if name = last.1 then value = last.2 else IsLast definitions name value := by
  constructor
  · rintro ⟨before, after, same, absent⟩
    rcases List.eq_nil_or_concat' after with rfl | ⟨between, last', rfl⟩
    · obtain ⟨-, ends⟩ := List.append_inj' same rfl
      obtain rfl := List.singleton_inj.mp ends
      exact (if_pos rfl).mpr rfl
    · rw [← List.cons_append, ← List.append_assoc] at same
      obtain ⟨rfl, ends⟩ := List.append_inj' same rfl
      obtain rfl := List.singleton_inj.mp ends
      rw [List.map_append, List.mem_append, not_or] at absent
      have differs : name ≠ last.1 :=
        fun isName => absent.2 (List.mem_singleton.mpr isName)
      rw [if_neg differs]
      exact ⟨before, between, rfl, absent.1⟩
  · split
    · rintro rfl
      subst name
      exact ⟨definitions, [], rfl, List.not_mem_nil⟩
    · next differs =>
        rintro ⟨before, after, rfl, absent⟩
        refine ⟨before, after ++ [last], by simp, ?_⟩
        rw [List.map_append, List.mem_append, not_or]
        exact ⟨absent, fun member => differs (List.mem_singleton.mp member)⟩

theorem exists_isLast_iff :
    (∃ value, IsLast definitions name value) ↔ name ∈ definitions.map Prod.fst := by
  induction definitions using List.reverseRecOn with
  | nil =>
      simp [not_isLast_nil]
  | append_singleton earlier last inductionHypothesis =>
      simp only [isLast_concat_iff, List.map_append, List.mem_append, List.map_cons,
        List.map_nil, List.mem_singleton]
      by_cases isName : name = last.1
      · simp [isName]
      · simp only [isName, if_false, or_false, inductionHypothesis]

/-- The last values are found, and nothing else. -/
theorem get?_ofDefinitions_eq_some_iff
    {text : Text} :
    (ofDefinitions definitions).get? text = some value ↔
      ∃ name, text = reference name ∧ IsLast definitions name value := by
  induction definitions using List.reverseRecOn with
  | nil =>
      simp [ofDefinitions, not_isLast_nil]
  | append_singleton earlier last inductionHypothesis =>
      obtain ⟨name, latest⟩ := last
      simp only [ofDefinitions_concat, get?_define, isLast_concat_iff]
      by_cases isName : text = reference name
      · subst isName
        rw [if_pos rfl, Option.some.injEq]
        constructor
        · rintro rfl
          exact ⟨name, rfl, (if_pos rfl).mpr rfl⟩
        · rintro ⟨name', same, last⟩
          obtain rfl := reference_injective same
          exact ((if_pos rfl).mp last).symm
      · rw [if_neg isName, inductionHypothesis]
        refine exists_congr fun name' => and_congr_right fun refers => ?_
        have differs : name' ≠ name := by
          rintro rfl
          exact isName refers
        rw [if_neg differs]

theorem isSome_get?_ofDefinitions_iff :
    ((ofDefinitions definitions).get? (reference name)).isSome = true ↔
      name ∈ definitions.map Prod.fst := by
  rw [Option.isSome_iff_exists, ← exists_isLast_iff]
  refine exists_congr fun value => ?_
  rw [get?_ofDefinitions_eq_some_iff]
  constructor
  · rintro ⟨name', same, last⟩
    obtain rfl := reference_injective same
    exact last
  · intro last
    exact ⟨name, rfl, last⟩

theorem size_ofDefinitions
    (definitions : List (Text × Text)) :
    (ofDefinitions definitions).size = (definitions.map Prod.fst).toFinset.card := by
  induction definitions using List.reverseRecOn with
  | nil =>
      rfl
  | append_singleton earlier last inductionHypothesis =>
      obtain ⟨name, latest⟩ := last
      have names :
          ((earlier ++ [(name, latest)]).map Prod.fst).toFinset =
            insert name (earlier.map Prod.fst).toFinset := by
        ext other
        simp
      rw [ofDefinitions_concat, size_define, names, Finset.card_insert_eq_ite,
        inductionHypothesis]
      simp only [isSome_get?_ofDefinitions_iff, List.mem_toFinset]

theorem holdsLast_ofDefinitions
    (definitions : List (Text × Text)) :
    HoldsLast (ofDefinitions definitions) definitions where
  found := fun _ _ => get?_ofDefinitions_eq_some_iff
  count := size_ofDefinitions definitions
  replaced := by
    intro raw
    rw [resolve_ne_iff]
    constructor
    · rintro ⟨refers, value, isFound, inhabited, differs⟩
      obtain ⟨name, rfl, last⟩ := get?_ofDefinitions_eq_some_iff.mp isFound
      exact ⟨name, value, rfl, isReference_reference_iff.mp refers, last, inhabited, differs⟩
    · rintro ⟨name, value, rfl, custom, last, inhabited, differs⟩
      exact ⟨isReference_reference custom, value,
        get?_ofDefinitions_eq_some_iff.mpr ⟨name, rfl, last⟩, inhabited, differs⟩
  replacement := by
    intro name value custom last inhabited
    exact resolve_of_get? (isReference_reference custom)
      (get?_ofDefinitions_eq_some_iff.mpr ⟨name, rfl, last⟩) inhabited

/-- The table of a sheet is made by the definitions of the sheet. -/
theorem ofItems_eq_ofDefinitions
    (items : List (Item Place)) :
    ofItems items = ofDefinitions (Item.definitionsIn items) := by
  rw [Item.definitionsIn_eq_filterMap, ofDefinitions, List.foldl_filterMap]
  refine congrArg (fun step => (Item.declarationsIn items).foldl step empty) ?_
  funext table stated
  unfold declare Declaration.definition?
  split <;> rfl

/-- What it means that nothing tells two tables apart. -/
structure Alike (table table' : Variables) : Prop where
  get? : ∀ text, table.get? text = table'.get? text
  size : table.size = table'.size
  resolve : ∀ raw, table.resolve raw = table'.resolve raw

theorem Alike.of_get?
    {table table' : Variables}
    (agree : ∀ text, table.get? text = table'.get? text) :
    Alike table table' where
  get? := agree
  size := by
    have references :
        (table.entries.map Prod.fst).toFinset = (table'.entries.map Prod.fst).toFinset := by
      ext text
      rw [List.mem_toFinset, List.mem_toFinset, mem_references_iff, mem_references_iff, agree]
    rw [size_eq_card, references, ← size_eq_card]
  resolve := by
    intro raw
    unfold Variables.resolve
    rw [agree raw]

theorem get?_foldl_define_congr
    {table table' : Variables}
    (agree : ∀ text, table.get? text = table'.get? text)
    (definitions : List (Text × Text))
    (text : Text) :
    (definitions.foldl (fun table definition => table.define definition.1 definition.2)
        table).get? text =
      (definitions.foldl (fun table definition => table.define definition.1 definition.2)
        table').get? text := by
  induction definitions generalizing table table' with
  | nil =>
      exact agree text
  | cons definition rest inductionHypothesis =>
      refine inductionHypothesis fun other => ?_
      rw [get?_define, get?_define, agree other]

/-- Definitions of different names can change places. -/
theorem alike_of_swapped
    {first second : Text × Text}
    (differ : first.1 ≠ second.1)
    (before after : List (Text × Text)) :
    Alike (ofDefinitions (before ++ first :: second :: after))
      (ofDefinitions (before ++ second :: first :: after)) := by
  refine .of_get? fun text => ?_
  unfold ofDefinitions
  rw [List.foldl_append, List.foldl_append]
  refine get?_foldl_define_congr (fun other => ?_) after text
  simp only [get?_define]
  by_cases isFirst : other = reference first.1
  · have notSecond : other ≠ reference second.1 :=
      fun isSecond => differ (reference_injective (isFirst.symm.trans isSecond))
    rw [if_neg notSecond, if_neg notSecond]
  · rw [if_neg isFirst, if_neg isFirst]

end Sequences

/--
The table of a sheet holds the last values of the definitions of the sheet.  The same is
true of the table of any definitions at all, and those of different names can change places.
-/
theorem holdsLast_and_alike :
    (∀ items : List (Item Place), HoldsLast (ofItems items) (Item.definitionsIn items)) ∧
      (∀ definitions, HoldsLast (ofDefinitions definitions) definitions) ∧
        ∀ (first second : Text × Text) (before after : List (Text × Text)),
          first.1 ≠ second.1 →
            Alike (ofDefinitions (before ++ first :: second :: after))
              (ofDefinitions (before ++ second :: first :: after)) := by
  refine ⟨fun items => ?_, holdsLast_ofDefinitions,
    fun first second before after differ => alike_of_swapped differ before after⟩
  rw [ofItems_eq_ofDefinitions]
  exact holdsLast_ofDefinitions (Item.definitionsIn items)

/-- Names can hold brackets and blanks, and a name that is defined again counts once. -/
theorem holdsLast_and_alike_bracketed :
    let table :=
      ofDefinitions
        [(['-', '-', 'a'], ['x']), (['a', ')', ' ', '('], []), (['-', '-', 'a'], ['y'])]
    table.size = 2 ∧
      table.resolve (reference ['-', '-', 'a']) = ['y'] ∧
        (['-', '-', 'a'] : Text) ≠ ['a', ')', ' ', '('] ∧
          Alike table
            (ofDefinitions
              [(['a', ')', ' ', '('], []), (['-', '-', 'a'], ['x']),
                (['-', '-', 'a'], ['y'])]) := by
  have holds := (@holdsLast_and_alike Unit).2.1
  have differ : (['-', '-', 'a'] : Text) ≠ ['a', ')', ' ', '('] := by
    decide
  refine ⟨(holds _).count, ?_, differ,
    (@holdsLast_and_alike Unit).2.2 (_, _) (_, _) [] [(_, _)] differ⟩
  exact (holds _).replacement _ _ rfl ⟨[_, _], [], rfl, List.not_mem_nil⟩ (by decide)

end Variables

end PageSheet
