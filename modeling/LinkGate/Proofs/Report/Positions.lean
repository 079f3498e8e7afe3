import LinkGate.Proofs.Report.Order
import LinkGate.Proofs.Text.WrittenNumbers

/-!
# Positions in a report

Calls of one function in one file are sorted by the text of their lines and columns, which is not
the order of the numbers: line 10 comes before line 9.  `ShowsAscending` says of which positions the
text and the numbers have the same order; the others stand the wrong way round in every report.
-/

set_option autoImplicit false

namespace LinkGate

namespace SourcePos

/-- An earlier line, or an earlier column of the same line. -/
def Ascending (p q : SourcePos) : Prop :=
  p.line < q.line ∨ p.line = q.line ∧ p.col < q.col

instance (p q : SourcePos) : Decidable (p.Ascending q) :=
  inferInstanceAs (Decidable (_ ∨ _))

/-- The leading digits of the later line are more than the earlier line; within a line, those of
the later column are no less than the earlier column. -/
def ShowsAscending (p q : SourcePos) : Prop :=
  if p.line = q.line then p.col.toNat ≤ leading p.col.toNat q.col.toNat
  else p.line.toNat < leading p.line.toNat q.line.toNat

instance (p q : SourcePos) : Decidable (p.ShowsAscending q) :=
  inferInstanceAs (Decidable (ite _ _ _))

/-- Line and column as a position shows them behind its file. -/
def numbers (pos : SourcePos) : List Char :=
  Nat.toDigits 10 pos.line.toNat ++ ':' :: Nat.toDigits 10 pos.col.toNat

variable {p q : SourcePos}

theorem toList_text (pos : SourcePos) :
    pos.text.toList = pos.file.toList ++ ':' :: pos.numbers := by
  have whole : pos.text =
      pos.file ++ ":" ++ pos.line.toNat.repr ++ ":" ++ pos.col.toNat.repr := rfl
  simp [whole, numbers]

theorem numbers_lt (ascending : p.Ascending q) (shown : p.ShowsAscending q) :
    p.numbers < q.numbers := by
  rw [ShowsAscending] at shown
  rcases ascending with line | ⟨line, col⟩
  · rw [if_neg (UInt32.ne_of_lt line)] at shown
    exact toDigits_stop_lt _ _ (UInt32.lt_iff_toNat_lt.mp line) shown
  · rw [if_pos line] at shown
    rw [numbers, numbers, line]
    apply List.append_left_lt
    have cols := toDigits_lt_of_le (UInt32.lt_iff_toNat_lt.mp col) shown
    exact List.cons_lt_cons_iff.mpr (.inr ⟨rfl, cols⟩)

theorem numbers_gt (ascending : p.Ascending q) (hidden : ¬p.ShowsAscending q) :
    q.numbers < p.numbers := by
  rw [ShowsAscending] at hidden
  rcases ascending with line | ⟨line, col⟩
  · rw [if_neg (UInt32.ne_of_lt line), Nat.not_lt] at hidden
    exact toDigits_stop_gt _ _ (by decide) (UInt32.lt_iff_toNat_lt.mp line) hidden
  · rw [if_pos line, Nat.not_le] at hidden
    rw [numbers, numbers, line]
    apply List.append_left_lt
    have cols := toDigits_gt_of_lt (UInt32.lt_iff_toNat_lt.mp col) hidden
    exact List.cons_lt_cons_iff.mpr (.inr ⟨rfl, cols⟩)

/-- Lines of as many digits, and columns of as many digits. -/
theorem showsAscending_of_same_width (ascending : p.Ascending q)
    (lines : digitCount p.line.toNat = digitCount q.line.toNat)
    (cols : digitCount p.col.toNat = digitCount q.col.toNat) : p.ShowsAscending q := by
  rw [ShowsAscending, leading_of_same lines, leading_of_same cols]
  rcases ascending with line | ⟨line, col⟩
  · rw [if_neg (UInt32.ne_of_lt line)]
    exact UInt32.lt_iff_toNat_lt.mp line
  · rw [if_pos line]
    exact Nat.le_of_lt (UInt32.lt_iff_toNat_lt.mp col)

end SourcePos

/-! ## In reports -/

namespace Diagnostic

/-- Placed at a call that `function` makes at `pos`. -/
def At (function : String) (pos : SourcePos) (d : Diagnostic) : Prop :=
  d.location = some (.callSite function (some pos))

/-- A diagnostic that says nothing but where it is. -/
def callAt (function : String) (pos : SourcePos) : Diagnostic where
  code := ""
  stage := .link
  message := ""
  location := some (.callSite function (some pos))

section
variable {function : String} {p q : SourcePos} {a b : Diagnostic}

theorem toList_sortKey (here : a.At function p) :
    a.sortKey.toList = function.toList ++ '@' :: (p.file.toList ++ ':' :: p.numbers) := by
  have text : a.sortKey = function ++ "@" ++ p.text := by
    rw [sortKey, here]
    rfl
  simp [text, SourcePos.toList_text]

theorem before_of_numbers_lt (here : a.At function p) (there : b.At function q)
    (same : p.file = q.file) (less : p.numbers < q.numbers) : a.Before b := by
  apply Prod.Lex.left
  apply Utf8.bytes_lt
  rw [toList_sortKey here, toList_sortKey there, same]
  apply List.append_left_lt
  apply List.cons_lt_cons_iff.mpr
  refine .inr ⟨rfl, List.append_left_lt ?_⟩
  exact List.cons_lt_cons_iff.mpr (.inr ⟨rfl, less⟩)

end

end Diagnostic

namespace Report

theorem diagnostics_pair (report : Report) {a b : Diagnostic} (before : a.Before b) :
    (report.withDiagnostics [b, a]).diagnostics = [a, b] := by
  have distinct : ([a, b].map Diagnostic.key).Nodup := by simpa using before.key_ne
  have sorted : [a, b].Pairwise fun c d => c.le d = true :=
    List.pairwise_pair.mpr (Diagnostic.le_iff.mpr (.inr before))
  rw [withDiagnostics_of_perm report (.swap a b []) distinct]
  exact List.mergeSort_of_pairwise sorted

/-- No report has a call at `second` before one at `first`. -/
def Precedes (function : String) (first second : SourcePos) : Prop :=
  ∀ (report : Report) (ds : List Diagnostic),
    (report.withDiagnostics ds).diagnostics.Pairwise fun a b =>
      ¬(a.At function second ∧ b.At function first)

section
variable {p q : SourcePos} (same : p.file = q.file) (function : String)
include same

theorem precedes_of_numbers_lt (less : p.numbers < q.numbers) : Precedes function p q := by
  intro report ds
  apply (diagnostics_ordered report ds).imp
  rintro a b order ⟨atSecond, atFirst⟩
  exact (Diagnostic.before_of_numbers_lt atFirst atSecond same less).not_notAfter order

theorem not_precedes_of_numbers_lt (less : p.numbers < q.numbers) : ¬Precedes function q p := by
  intro kept
  have before : (Diagnostic.callAt function p).Before (.callAt function q) :=
    Diagnostic.before_of_numbers_lt rfl rfl same less
  have shown := kept .clean [.callAt function q, .callAt function p]
  rw [diagnostics_pair _ before, List.pairwise_pair] at shown
  exact shown ⟨rfl, rfl⟩

/-- Of two positions the earlier one precedes where the leading digits show their order, and the
later one wherever they do not.  Lines and columns that have as many digits show it. -/
theorem positions_ascend_iff (ascending : p.Ascending q) :
    (Precedes function p q ↔ p.ShowsAscending q) ∧
      (Precedes function q p ↔ ¬p.ShowsAscending q) ∧
      (digitCount p.line.toNat = digitCount q.line.toNat →
        digitCount p.col.toNat = digitCount q.col.toNat → p.ShowsAscending q) := by
  refine ⟨?_, ?_, SourcePos.showsAscending_of_same_width ascending⟩
  · constructor
    · intro kept
      by_contra hidden
      have less := SourcePos.numbers_gt ascending hidden
      exact not_precedes_of_numbers_lt same.symm function less kept
    · intro shown
      exact precedes_of_numbers_lt same function (SourcePos.numbers_lt ascending shown)
  · constructor
    · intro kept shown
      have less := SourcePos.numbers_lt ascending shown
      exact not_precedes_of_numbers_lt same function less kept
    · intro hidden
      exact precedes_of_numbers_lt same.symm function (SourcePos.numbers_gt ascending hidden)

end

/-- Line 1 comes before line 20, because 1 is less than 2. -/
theorem positions_ascend_iff_one_twenty :
    SourcePos.Ascending ⟨"a.rs", 1, 80⟩ ⟨"a.rs", 20, 5⟩ ∧
      Precedes "f" ⟨"a.rs", 1, 80⟩ ⟨"a.rs", 20, 5⟩ := by
  have ascending : SourcePos.Ascending ⟨"a.rs", 1, 80⟩ ⟨"a.rs", 20, 5⟩ := by decide
  have shown : SourcePos.ShowsAscending ⟨"a.rs", 1, 80⟩ ⟨"a.rs", 20, 5⟩ := by decide +kernel
  have same : SourcePos.file ⟨"a.rs", 1, 80⟩ = SourcePos.file ⟨"a.rs", 20, 5⟩ := rfl
  exact ⟨ascending, (positions_ascend_iff same "f" ascending).1.mpr shown⟩

/-- Line 10 comes before line 9, so that not in every report positions ascend. -/
theorem line_ten_before_nine :
    (Report.clean.withDiagnostics
        [.callAt "f" ⟨"a.rs", 9, 1⟩, .callAt "f" ⟨"a.rs", 10, 1⟩]).diagnostics =
        [.callAt "f" ⟨"a.rs", 10, 1⟩, .callAt "f" ⟨"a.rs", 9, 1⟩] ∧
      ¬∀ (report : Report) (ds : List Diagnostic) (function : String),
        (report.withDiagnostics ds).diagnostics.Pairwise fun a b =>
          ∀ p q : SourcePos, a.At function p → b.At function q → p.file = q.file →
            ¬q.Ascending p := by
  have less : SourcePos.numbers ⟨"a.rs", 10, 1⟩ < SourcePos.numbers ⟨"a.rs", 9, 1⟩ :=
    SourcePos.numbers_gt (by decide) (by decide +kernel)
  have before : (Diagnostic.callAt "f" ⟨"a.rs", 10, 1⟩).Before (.callAt "f" ⟨"a.rs", 9, 1⟩) :=
    Diagnostic.before_of_numbers_lt rfl rfl rfl less
  have shown := diagnostics_pair .clean before
  refine ⟨shown, fun ascend => ?_⟩
  have wrong := ascend .clean [.callAt "f" ⟨"a.rs", 9, 1⟩, .callAt "f" ⟨"a.rs", 10, 1⟩] "f"
  rw [shown, List.pairwise_pair] at wrong
  exact wrong _ _ rfl rfl rfl (by decide)

end Report

end LinkGate
