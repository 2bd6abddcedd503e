import GuardedConsole.Calendar.Basic
import GuardedConsole.Proofs.Value.Data

/-!
# Arguments of methods

A method is carried out exactly if it is passed as many arguments as it has parameters; otherwise
the call changes nothing. An argument that was not passed counts as nothing.
-/

namespace GuardedConsole.Calendar

variable {form : String × List String} {arguments : List Value}

theorem isData_argument (plain : ∀ v ∈ arguments, v.IsData) (i : Nat) :
    (argument arguments i).IsData := by
  unfold argument
  cases found : arguments[i]? with
  | none => exact .null
  | some v => exact plain v (List.mem_of_getElem? found)

/-- A method takes as many arguments as it has parameters. -/
theorem check_ofMethod_iff (owner : String) (form : String × List String) (count : Nat) :
    (Signature.ofMethod owner form).check (count + 1) = .ok () ↔ count = form.2.length := by
  have required : (Signature.ofMethod owner form).required = form.2.length + 1 := by
    simp [Signature.ofMethod]
  have parameters : (Signature.ofMethod owner form).parameters.length = form.2.length + 1 := by
    simp [Signature.ofMethod]
  unfold Signature.check
  rw [parameters, required, ← parameters, List.take_length]
  split
  · simp only [reduceCtorEq, false_iff]
    omega
  · rename_i few
    rw [parameters] at few
    split
    · rename_i full
      have := List.drop_eq_nil_iff.mp full
      simp only [true_iff]
      omega
    · rename_i lacking
      have := mt List.drop_eq_nil_iff.mpr lacking
      simp only [reduceCtorEq, false_iff]
      omega

theorem checked_of_length_eq (c : Calendar) (owner : String) (change : Change)
    (enough : arguments.length = form.2.length) :
    c.checked owner form arguments change = change := by
  rw [checked, (check_ofMethod_iff owner form arguments.length).mpr enough]

theorem checked_of_length_ne (c : Calendar) (owner : String) (change : Change)
    (wrong : arguments.length ≠ form.2.length) :
    ∃ f, c.checked owner form arguments change = (.error f, c) := by
  unfold checked
  split
  · rename_i passed
    exact absurd ((check_ofMethod_iff owner form arguments.length).mp passed) wrong
  · exact ⟨_, rfl⟩

end GuardedConsole.Calendar
