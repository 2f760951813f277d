import PageSheet.Command.Arguments
import PageSheet.Proofs.Results
namespace PageSheet.Command

/-!
# Values that are given

Whatever the order of the arguments, a value is given to its slot only after it has been
checked.  So no command that is accepted has an empty path for its sheet or for the
directory of its page.
-/

namespace Intake

/-- What it means that every value that was given passed the check of its slot. -/
def Checked (intake : Intake) : Prop :=
  ∀ entry ∈ intake.given, entry.1.fault? entry.2 = none

section Taking

variable {intake next : Intake} {verb : Verb}

theorem checked_of_give
    {slot : Slot}
    {value : Text}
    (checked : intake.Checked)
    (given : intake.give slot value = .ok next) :
    next.Checked := by
  unfold give at given
  split at given
  · cases given
  split at given
  · cases given
  next passes =>
    cases given
    exact List.forall_mem_cons.mpr ⟨passes, checked⟩

/-- The value that waits is checked before it is given. -/
theorem checked_of_settle
    (checked : intake.Checked)
    (settled : intake.settle = .ok next) :
    next.Checked := by
  unfold settle at settled
  split at settled
  · cases settled
    exact checked
  · cases settled
  · exact checked_of_give checked settled

theorem checked_of_await
    {slot : Slot}
    {value : Option Text}
    (checked : intake.Checked)
    (taken : intake.await slot value = .ok next) :
    next.Checked := by
  obtain ⟨settled, settles, isNext⟩ := exists_of_bind_eq_ok taken
  have earlier := checked_of_settle checked settles
  cases isNext
  exact earlier

theorem checked_of_attach
    {slot : Slot}
    {value : Text}
    (checked : intake.Checked)
    (taken : intake.attach slot value = .ok next) :
    next.Checked := by
  obtain ⟨settled, settles, gives⟩ := exists_of_bind_eq_ok taken
  exact checked_of_give (checked_of_settle checked settles) gives

theorem askForHelp_ne_ok : intake.askForHelp ≠ .ok next := by
  intro taken
  obtain ⟨settled, -, helps⟩ := exists_of_bind_eq_ok taken
  cases helps

theorem checked_of_takePositional
    {value : Text}
    (checked : intake.Checked)
    (taken : takePositional verb intake value = .ok next) :
    next.Checked := by
  unfold takePositional at taken
  split at taken
  · exact checked_of_await checked taken
  · cases taken

theorem checked_of_takePlain
    {value : Text}
    (checked : intake.Checked)
    (taken : takePlain verb intake value = .ok next) :
    next.Checked := by
  unfold takePlain at taken
  split at taken
  · cases taken
    exact checked
  · exact checked_of_takePositional checked taken

theorem checked_of_takeLong
    {word : Text}
    {value : Option Text}
    (checked : intake.Checked)
    (taken : takeLong verb intake word value = .ok next) :
    next.Checked := by
  unfold takeLong at taken
  split at taken
  · exact checked_of_await checked taken
  · exact checked_of_attach checked taken
  · split at taken
    · exact absurd taken askForHelp_ne_ok
    · cases taken
  · split at taken <;> cases taken

theorem checked_of_takeShort
    {letter : Char}
    {rest : Text}
    (checked : intake.Checked)
    (taken : takeShort verb intake letter rest = .ok next) :
    next.Checked := by
  unfold takeShort at taken
  split at taken
  · exact checked_of_await checked taken
  · exact checked_of_attach checked taken
  · exact checked_of_attach checked taken
  · split at taken
    · exact absurd taken askForHelp_ne_ok
    · cases taken

/-- Positional arguments are given checked. -/
theorem checked_of_positionals
    {arguments : List Text}
    (checked : intake.Checked)
    (taken : arguments.foldlM (takePositional verb) intake = .ok next) :
    next.Checked := by
  induction arguments generalizing intake with
  | nil =>
      cases taken
      exact checked
  | cons argument rest inductionHypothesis =>
      rw [List.foldlM_cons] at taken
      obtain ⟨between, first, others⟩ := exists_of_bind_eq_ok taken
      exact inductionHypothesis (checked_of_takePositional checked first) others

/-- Whatever arguments are read, the values that are given are checked. -/
theorem checked_of_takeAll
    {arguments : List Text}
    (checked : intake.Checked)
    (taken : intake.takeAll verb arguments = .ok next) :
    next.Checked := by
  induction arguments generalizing intake with
  | nil =>
      exact checked_of_settle checked taken
  | cons argument rest inductionHypothesis =>
      unfold takeAll at taken
      split at taken
      · obtain ⟨between, positionals, settles⟩ := exists_of_bind_eq_ok taken
        exact checked_of_settle (checked_of_positionals checked positionals) settles
      · obtain ⟨between, first, others⟩ := exists_of_bind_eq_ok taken
        exact inductionHypothesis (checked_of_takeLong checked first) others
      · obtain ⟨between, first, others⟩ := exists_of_bind_eq_ok taken
        exact inductionHypothesis (checked_of_takeShort checked first) others
      · obtain ⟨between, first, others⟩ := exists_of_bind_eq_ok taken
        exact inductionHypothesis (checked_of_takePlain checked first) others

end Taking

/-- A slot that was given a value was given one that passes its check. -/
theorem Checked.fault?_eq_none
    {intake : Intake}
    (checked : intake.Checked)
    {slot : Slot}
    {value : Text}
    (given : intake.value? slot = some value) :
    slot.fault? value = none := by
  obtain ⟨front, back, shape, -⟩ := List.lookup_eq_some_iff.mp given
  exact checked (slot, value) (by rw [shape]; simp)

end Intake

namespace Request

/-- A page is never asked for with an empty path for its sheet or its directory. -/
theorem ne_nil_of_build
    {line : List Text}
    {source outdir : Text}
    (accepted : ofArguments line = .ok (.build source outdir)) :
    source ≠ [] ∧ outdir ≠ [] := by
  have starts : Intake.initial.Checked :=
    List.forall_mem_nil _
  have inhabited :
      ∀ {value}, Slot.fault? .source value = none → value ≠ [] := by
    rintro value passes rfl
    cases passes
  cases line with
  | nil =>
      cases accepted
  | cons first rest =>
      simp only [ofArguments] at accepted
      cases named : Verb.ofName? first with
      | none =>
          simp only [named] at accepted
          split at accepted <;> cases accepted
      | some verb =>
          simp only [named] at accepted
          obtain ⟨intake, taken, asks⟩ := exists_of_bind_eq_ok accepted
          have checked := Intake.checked_of_takeAll starts taken
          unfold ofIntake at asks
          split at asks
          · next given =>
              cases asks
              refine ⟨inhabited (checked.fault?_eq_none given), ?_⟩
              cases given : intake.value? .outdir with
              | none =>
                  exact List.cons_ne_nil _ _
              | some outdir =>
                  have passes := checked.fault?_eq_none given
                  exact inhabited passes
          all_goals cases asks

end Request

end PageSheet.Command
