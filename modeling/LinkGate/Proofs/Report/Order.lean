import LinkGate.Proofs.Report.Members
import LinkGate.Proofs.Sorting
import LinkGate.Proofs.Text.Order
import Mathlib.Data.List.Nodup

/-!
# The order of a report

A report is sorted by the bytes of the location's text, then of the code, then of the message
(`NotAfter`).  Sorting moves no diagnostic past one with the same three texts, so that it changes
nothing when it is repeated; where no two diagnostics have the same, the order in which they were
given does not show.
-/

set_option autoImplicit false

namespace LinkGate

/-! ## The order of diagnostics -/

namespace Diagnostic

/-- The texts that a report is sorted by, as bytes: location, code, message. -/
def key (d : Diagnostic) : Bytes × Bytes × Bytes :=
  (Utf8.encode d.sortKey, Utf8.encode d.code, Utf8.encode d.message)

/-- The first of the three texts that differs is smaller. -/
def Before (a b : Diagnostic) : Prop :=
  Prod.Lex (· < ·) (Prod.Lex (· < ·) (· < ·)) a.key b.key

def NotAfter (a b : Diagnostic) : Prop :=
  a.key = b.key ∨ a.Before b

theorem compare_eq_eq_iff {a b : Diagnostic} : compare a b = .eq ↔ a.key = b.key := by
  simp only [compare, Ordering.then_eq_eq, Utf8.compare_eq_eq_iff, key, Prod.mk.injEq]

theorem compare_eq_lt_iff {a b : Diagnostic} : compare a b = .lt ↔ a.Before b := by
  simp only [compare, Ordering.then_eq_lt, Utf8.compare_eq_eq_iff, Utf8.compare_eq_lt_iff, Before,
    key, Prod.lex_def]

theorem le_iff {a b : Diagnostic} : a.le b = true ↔ a.NotAfter b := by
  rw [le, NotAfter, ← compare_eq_eq_iff, ← compare_eq_lt_iff]
  cases compare a b <;> simp

instance : Std.TransCmp compare :=
  inferInstanceAs (Std.TransCmp (compareLex (compareOn sortKey)
    (compareLex (compareOn code) (compareOn message))))

theorem le_trans (a b c : Diagnostic) (one : a.le b = true) (two : b.le c = true) :
    a.le c = true :=
  Std.TransCmp.isLE_trans one two

theorem le_total (a b : Diagnostic) : (a.le b || b.le a) = true :=
  isLE_total compare a b

theorem Before.not_notAfter {a b : Diagnostic} (before : a.Before b) : ¬b.NotAfter a := by
  rw [← le_iff, le, Std.OrientedCmp.gt_iff_lt.mpr (compare_eq_lt_iff.mpr before)]
  decide

theorem Before.key_ne {a b : Diagnostic} (before : a.Before b) : a.key ≠ b.key :=
  fun same => before.not_notAfter (.inl same.symm)

theorem key_eq_of_le {a b : Diagnostic} (one : a.le b = true) (two : b.le a = true) :
    a.key = b.key :=
  compare_eq_eq_iff.mp (Std.OrientedCmp.isLE_antisymm one two)

end Diagnostic

/-! ## Reports -/

namespace Report
variable (report : Report) (ds : List Diagnostic)

theorem diagnostics_perm : (report.withDiagnostics ds).diagnostics.Perm ds :=
  List.mergeSort_perm ds Diagnostic.le

theorem diagnostics_ordered :
    (report.withDiagnostics ds).diagnostics.Pairwise Diagnostic.NotAfter :=
  (List.pairwise_mergeSort Diagnostic.le_trans Diagnostic.le_total ds).imp Diagnostic.le_iff.mp

theorem filter_diagnostics (key : Bytes × Bytes × Bytes) :
    (report.withDiagnostics ds).diagnostics.filter (fun d => d.key = key) =
      ds.filter fun d => d.key = key := by
  apply filter_mergeSort Diagnostic.le_trans Diagnostic.le_total
  intro a b first second
  rw [decide_eq_true_eq] at first second
  exact Diagnostic.le_iff.mpr (.inl (first.trans second.symm))

theorem withDiagnostics_again :
    (report.withDiagnostics ds).withDiagnostics (report.withDiagnostics ds).diagnostics =
      report.withDiagnostics ds := by
  have sorted := List.pairwise_mergeSort Diagnostic.le_trans Diagnostic.le_total ds
  simp only [withDiagnostics, List.mergeSort_of_pairwise sorted]

theorem withDiagnostics_of_perm {ds others : List Diagnostic} (permuted : others.Perm ds)
    (distinct : (ds.map Diagnostic.key).Nodup) :
    report.withDiagnostics others = report.withDiagnostics ds := by
  have sorted : others.mergeSort Diagnostic.le = ds.mergeSort Diagnostic.le := by
    apply mergeSort_eq_of_perm Diagnostic.le_trans Diagnostic.le_total permuted
    intro a memberA b memberB one two
    exact List.inj_on_of_nodup_map distinct memberA memberB (Diagnostic.key_eq_of_le one two)
  simp only [withDiagnostics, sorted]

/-- The diagnostics of a report are sorted, stably; so sorting them again keeps them, and the order
of those that are given does not show unless two have the same texts. -/
theorem diagnostics_sorted_stably :
    (report.withDiagnostics ds).diagnostics.Perm ds ∧
      (report.withDiagnostics ds).diagnostics.Pairwise Diagnostic.NotAfter ∧
      (∀ key, (report.withDiagnostics ds).diagnostics.filter (fun d => d.key = key) =
        ds.filter fun d => d.key = key) ∧
      (report.withDiagnostics ds).withDiagnostics (report.withDiagnostics ds).diagnostics =
        report.withDiagnostics ds ∧
      ∀ first second : List Diagnostic, first.Perm ds → second.Perm ds →
        (ds.map Diagnostic.key).Nodup →
        report.withDiagnostics first = report.withDiagnostics second := by
  refine ⟨diagnostics_perm report ds, diagnostics_ordered report ds, filter_diagnostics report ds,
    withDiagnostics_again report ds, fun first second one two distinct => ?_⟩
  rw [withDiagnostics_of_perm report one distinct, withDiagnostics_of_perm report two distinct]

/-- Diagnostics without a location, of a file and of a call: of the last two, which both begin with
the same text, the file comes first. -/
def mixed : List Diagnostic :=
  [{ code := "B", stage := .link, message := "m",
     location := some (.callSite "a" (some ⟨"a.rs", 1, 1⟩)) },
    { code := "C", stage := .parse, message := "m", location := some (.file "a") },
    { code := "D", stage := .link, message := "m" },
    { code := "A", stage := .link, message := "m", location := some (.file "a") }]

theorem diagnostics_sorted_stably_mixed :
    mixed.reverse.Perm mixed ∧ (mixed.map Diagnostic.key).Nodup ∧
      Report.clean.withDiagnostics mixed.reverse = Report.clean.withDiagnostics mixed := by
  have permuted := List.reverse_perm mixed
  have distinct : (mixed.map Diagnostic.key).Nodup := by decide +kernel
  have result := (diagnostics_sorted_stably .clean mixed).2.2.2.2 mixed.reverse mixed
  exact ⟨permuted, distinct, result permuted (.refl mixed) distinct⟩

end Report

end LinkGate
