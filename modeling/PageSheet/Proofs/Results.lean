namespace PageSheet

/-!
# Results that can be failures

What follows from the result of computations that are carried out one after the other:
they all succeeded, or one of them failed and those before it succeeded.
-/

theorem exists_of_bind_eq_ok
    {result : Except ε α}
    {next : α → Except ε β}
    {value : β}
    (succeeds : result.bind next = .ok value) :
    ∃ between, result = .ok between ∧ next between = .ok value := by
  cases result with
  | ok between =>
      exact ⟨between, rfl, succeeds⟩
  | error failure =>
      cases succeeds

theorem exists_of_map_eq_ok
    {result : Except ε α}
    {carry : α → β}
    {value : β}
    (succeeds : result.map carry = .ok value) :
    ∃ given, result = .ok given ∧ carry given = value := by
  cases result with
  | ok given =>
      exact ⟨given, rfl, Except.ok.inj succeeds⟩
  | error failure =>
      cases succeeds

theorem cases_of_bind_eq_error
    {result : Except ε α}
    {next : α → Except ε β}
    {failure : ε}
    (fails : result.bind next = .error failure) :
    result = .error failure ∨
      ∃ between, result = .ok between ∧ next between = .error failure := by
  cases result with
  | ok between =>
      exact .inr ⟨between, rfl, fails⟩
  | error failure' =>
      exact .inl (congrArg Except.error (Except.error.inj fails))

theorem eq_error_of_map_eq_error
    {result : Except ε α}
    {carry : α → β}
    {failure : ε}
    (fails : result.map carry = .error failure) :
    result = .error failure := by
  cases result with
  | ok given =>
      cases fails
  | error failure' =>
      exact congrArg Except.error (Except.error.inj fails)

theorem exists_of_isOk
    {result : Except ε α}
    (succeeds : result.isOk = true) :
    ∃ value, result = .ok value := by
  cases result with
  | ok value =>
      exact ⟨value, rfl⟩
  | error failure =>
      cases succeeds

end PageSheet
