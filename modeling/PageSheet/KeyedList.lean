namespace PageSheet.KeyedList

/-!
# Keyed lists

A keyed list is a list of keys with their values.  Setting the value of a key
puts it in front and removes what the key had before, so that no key comes to
have two values.  `lookup_set` says what every look-up finds afterwards.
-/

/-- The entries of all keys but one. -/
def erase
    [BEq Key]
    (key : Key)
    (entries : List (Key × Value)) :
    List (Key × Value) :=
  entries.filter fun entry => entry.1 != key

/-- Give a key a value, instead of the one it had. -/
def set
    [BEq Key]
    (key : Key)
    (value : Value)
    (entries : List (Key × Value)) :
    List (Key × Value) :=
  (key, value) :: erase key entries

/-- Removing one key keeps the look-ups of all others. -/
theorem lookup_erase
    [BEq Key]
    [LawfulBEq Key]
    {key other : Key}
    (differs : other ≠ key)
    (entries : List (Key × Value)) :
    (erase key entries).lookup other = entries.lookup other := by
  induction entries with
  | nil =>
      rfl
  | cons entry rest inductionHypothesis =>
      obtain ⟨first, value⟩ := entry
      unfold erase at inductionHypothesis ⊢
      by_cases isRemoved : first = key
      · subst isRemoved
        have misses : (other == first) = false := by
          simpa using differs
        simp [List.lookup_cons, misses, inductionHypothesis]
      · have stays : (first != key) = true := by
          simpa using isRemoved
        simp [stays, List.lookup_cons, inductionHypothesis]

/-- Setting a key changes its own value and no other. -/
theorem lookup_set
    [BEq Key]
    [LawfulBEq Key]
    [DecidableEq Key]
    (key other : Key)
    (value : Value)
    (entries : List (Key × Value)) :
    (set key value entries).lookup other =
      if other = key then some value else entries.lookup other := by
  unfold set
  by_cases same : other = key
  · simp [same]
  · have misses : (other == key) = false := by
      simpa using same
    rw [if_neg same, List.lookup_cons, misses]
    exact lookup_erase same entries

/-- Setting a key leaves no key with two values. -/
theorem nodup_set
    [BEq Key]
    [LawfulBEq Key]
    (key : Key)
    (value : Value)
    {entries : List (Key × Value)}
    (distinct : (entries.map Prod.fst).Nodup) :
    ((set key value entries).map Prod.fst).Nodup := by
  have others : ((erase key entries).map Prod.fst).Nodup :=
    distinct.sublist (List.Sublist.map Prod.fst List.filter_sublist)
  have absent : key ∉ (erase key entries).map Prod.fst := by
    simp [erase]
  exact List.nodup_cons.mpr ⟨absent, others⟩

/-- A key that has a value is the key of an entry. -/
theorem isSome_lookup_iff
    [BEq Key]
    [LawfulBEq Key]
    (key : Key)
    (entries : List (Key × Value)) :
    (entries.lookup key).isSome = true ↔ key ∈ entries.map Prod.fst := by
  induction entries with
  | nil =>
      simp
  | cons entry rest inductionHypothesis =>
      obtain ⟨first, value⟩ := entry
      by_cases same : key = first
      · simp [same]
      · have misses : (key == first) = false := by
          simpa using same
        simp [List.lookup_cons, misses, same, inductionHypothesis]

end PageSheet.KeyedList
