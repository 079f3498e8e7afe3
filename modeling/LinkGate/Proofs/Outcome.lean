/-!
# Results and failures

A computation that may fail, followed through its steps.
-/

set_option autoImplicit false

namespace LinkGate
variable {ε α β : Type} {x : Except ε α} {f : α → Except ε β}

theorem bind_eq_ok_iff {b : β} : (x >>= f) = .ok b ↔ ∃ a, x = .ok a ∧ f a = .ok b := by
  cases x <;> simp [bind, Except.bind]

theorem bind_eq_error_iff {e : ε} :
    (x >>= f) = .error e ↔ x = .error e ∨ ∃ a, x = .ok a ∧ f a = .error e := by
  cases x <;> simp [bind, Except.bind]

theorem map_eq_ok_iff {g : α → β} {b : β} : x.map g = .ok b ↔ ∃ a, x = .ok a ∧ g a = b := by
  cases x <;> simp [Except.map]

theorem exists_error_iff {refused : Prop} (fails : refused → ∃ e, x = .error e)
    (ends : ¬refused → ∃ a, x = .ok a) : (∃ e, x = .error e) ↔ refused := by
  refine ⟨fun ⟨e, failed⟩ => Classical.byContradiction fun allowed => ?_, fails⟩
  obtain ⟨a, ended⟩ := ends allowed
  cases failed.symm.trans ended

/-- Conditions under which a result is certain, one of which always holds, are exact. -/
theorem result_iff {gives : α → Prop} {fails : ε → Prop} (ok : ∀ a, gives a → x = .ok a)
    (error : ∀ e, fails e → x = .error e) (total : (∃ a, gives a) ∨ ∃ e, fails e) :
    (∀ a, x = .ok a ↔ gives a) ∧ ∀ e, x = .error e ↔ fails e := by
  rcases total with ⟨a, given⟩ | ⟨e, failed⟩
  · have result := ok a given
    refine ⟨fun b => ⟨fun same => ?_, ok b⟩, fun e => ⟨fun other => ?_, error e⟩⟩
    · exact Except.ok.inj (result.symm.trans same) ▸ given
    · cases result.symm.trans other
  · have result := error e failed
    refine ⟨fun a => ⟨fun other => ?_, ok a⟩, fun d => ⟨fun same => ?_, error d⟩⟩
    · cases result.symm.trans other
    · exact Except.error.inj (result.symm.trans same) ▸ failed

end LinkGate
