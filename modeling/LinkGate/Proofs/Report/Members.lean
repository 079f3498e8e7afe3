import LinkGate.Gate.Report
import LinkGate.Proofs.Lookup
import Mathlib.Data.List.Nodup

/-!
# What a report holds

A report has the diagnostics that it was given, is fine when there are none, and remembers the last
value of every fact.  Facts stand in ascending order of their keys, so that the values under all
keys say which facts there are.
-/

set_option autoImplicit false

namespace LinkGate

theorem Json.lookup_put (key name : String) (value : Json) (members : Members) :
    (put key value members).lookup name =
      if name = key then some value else members.lookup name := by
  induction members with
  | nil => rw [put, lookup_cons_eq, List.lookup_nil]
  | cons member rest ih =>
    obtain ⟨first, held⟩ := member
    rw [put]
    split
    case isTrue => rw [lookup_cons_eq]
    case isFalse =>
      split
      case isTrue same =>
        subst same
        rw [lookup_cons_eq, lookup_cons_eq]
        split <;> rfl
      case isFalse other =>
        rw [lookup_cons_eq, lookup_cons_eq, ih]
        by_cases found : name = first
        · subst found
          rw [if_pos rfl, if_pos rfl, if_neg (Ne.symm other)]
        · rw [if_neg found, if_neg found]

namespace Json

def Ascending (members : Members) : Prop :=
  members.Pairwise fun a b => a.1 < b.1

variable {members : Members}

theorem mem_put {key : String} {value : Json} {member : String × Json}
    (there : member ∈ put key value members) : member = (key, value) ∨ member ∈ members := by
  induction members with
  | nil => simpa [put] using there
  | cons first rest ih =>
    rw [put] at there
    split at there
    · simpa using there
    · split at there
      · exact (List.mem_cons.mp there).imp_right (List.mem_cons_of_mem first)
      · rcases List.mem_cons.mp there with same | later
        · exact .inr (List.mem_cons.mpr (.inl same))
        · exact (ih later).imp_right (List.mem_cons_of_mem first)

namespace Ascending

theorem nil : Ascending [] :=
  List.Pairwise.nil

theorem put (ascending : Ascending members) (key : String) (value : Json) :
    Ascending (put key value members) := by
  induction members with
  | nil => exact List.pairwise_singleton _ _
  | cons first rest ih =>
    obtain ⟨above, sorted⟩ := List.pairwise_cons.mp ascending
    rw [Json.put]
    split
    case isTrue less =>
      refine List.pairwise_cons.mpr ⟨fun member there => ?_, ascending⟩
      rcases List.mem_cons.mp there with rfl | later
      · exact less
      · exact String.lt_trans less (above member later)
    case isFalse notLess =>
      split
      case isTrue same =>
        subst same
        exact List.pairwise_cons.mpr ⟨above, sorted⟩
      case isFalse other =>
        refine List.pairwise_cons.mpr ⟨fun member there => ?_, ih sorted⟩
        rcases mem_put there with rfl | old
        · exact Std.lt_of_le_of_ne (String.not_lt.mp notLess) (Ne.symm other)
        · exact above member old

theorem distinct (ascending : Ascending members) : (members.map (·.1)).Nodup := by
  rw [List.nodup_iff_pairwise_ne, List.pairwise_map]
  exact ascending.imp String.ne_of_lt

theorem mem_iff (ascending : Ascending members) {key : String} {value : Json} :
    (key, value) ∈ members ↔ members.lookup key = some value :=
  ⟨lookup_of_mem ascending.distinct, mem_of_lookup⟩

/-- Members in order are known by the values under all keys. -/
theorem eq_of_lookup {others : Members} (ascending : Ascending members)
    (again : Ascending others) (same : ∀ key, members.lookup key = others.lookup key) :
    members = others := by
  have permuted : members.Perm others := by
    apply (List.perm_ext_iff_of_nodup ascending.distinct.of_map again.distinct.of_map).mpr
    rintro ⟨key, value⟩
    rw [ascending.mem_iff, again.mem_iff, same]
  apply permuted.eq_of_pairwise _ ascending again
  intro a b _ _ less greater
  exact absurd greater (String.lt_asymm less)

end Ascending

end Json

/-- There is no other severity. -/
theorem Severity.eq_error (severity : Severity) : severity = .error := by
  cases severity
  rfl

namespace Report
variable (report : Report)

theorem ok_withDiagnostics_iff (diagnostics : List Diagnostic) :
    (report.withDiagnostics diagnostics).ok = true ↔
      ∀ d ∈ (report.withDiagnostics diagnostics).diagnostics, d.severity ≠ .error := by
  simp [withDiagnostics]

/-- As every diagnostic is an error, a run is fine only without any. -/
@[simp] theorem ok_withDiagnostics (diagnostics : List Diagnostic) :
    (report.withDiagnostics diagnostics).ok = diagnostics.isEmpty := by
  rw [Bool.eq_iff_iff, ok_withDiagnostics_iff, List.isEmpty_iff]
  simp [Severity.eq_error, withDiagnostics, List.eq_nil_iff_forall_not_mem]

@[simp] theorem length_withDiagnostics (diagnostics : List Diagnostic) :
    (report.withDiagnostics diagnostics).diagnostics.length = diagnostics.length :=
  List.length_mergeSort diagnostics

@[simp] theorem ok_withFact (key : String) (value : Json) :
    (report.withFact key value).ok = report.ok :=
  rfl

@[simp] theorem diagnostics_withFact (key : String) (value : Json) :
    (report.withFact key value).diagnostics = report.diagnostics :=
  rfl

theorem lookup_withFact (key name : String) (value : Json) :
    (report.withFact key value).facts.lookup name =
      if name = key then some value else report.facts.lookup name :=
  Json.lookup_put key name value report.facts

end Report

namespace Outcome
variable (outcome : Outcome)

@[simp] theorem ok_report : outcome.report.ok = outcome.hits.isEmpty := by
  simp [report]

@[simp] theorem length_diagnostics_report :
    outcome.report.diagnostics.length = outcome.hits.length := by
  simp [report]

theorem gate_report :
    outcome.report.facts.lookup "gate" = some (.string outcome.state.name) := by
  rw [report, Report.lookup_withFact, if_neg (by decide), Report.lookup_withFact, if_pos rfl]

end Outcome

end LinkGate
