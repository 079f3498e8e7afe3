import LinkGate.Proofs.Report.Order
import Mathlib.Data.List.Induction

/-!
# Reports made in steps

A report is made from a clean one by giving it diagnostics and facts, in any order and any number of
times.  The last diagnostics count, and of each fact the last value (`Reflects`); this is all that a
report has, so that nothing else of its making shows.
-/

set_option autoImplicit false

namespace LinkGate

/-! ## Sorted diagnostics -/

/-- The diagnostics of a batch in the order of a report; those with the same texts stand as they
were given. -/
structure Diagnostic.Arranged (batch shown : List Diagnostic) : Prop where
  permuted : shown.Perm batch
  ordered : shown.Pairwise NotAfter
  stable : ∀ key, shown.filter (fun d => d.key = key) = batch.filter fun d => d.key = key

namespace Diagnostic

theorem NotAfter.key_eq {a b : Diagnostic} (one : a.NotAfter b) (two : b.NotAfter a) :
    a.key = b.key :=
  key_eq_of_le (le_iff.mpr one) (le_iff.mpr two)

theorem Arranged.unique {batch shown again : List Diagnostic} (arranged : Arranged batch shown)
    (other : Arranged batch again) : shown = again := by
  apply eq_of_ordered key (fun a b => NotAfter.key_eq)
    (arranged.permuted.trans other.permuted.symm) arranged.ordered other.ordered
  intro a _
  rw [arranged.stable, other.stable]

end Diagnostic

namespace Report

theorem arranged_withDiagnostics (report : Report) (batch : List Diagnostic) :
    Diagnostic.Arranged batch (report.withDiagnostics batch).diagnostics :=
  ⟨diagnostics_perm report batch, diagnostics_ordered report batch, filter_diagnostics report batch⟩

/-! ## Steps -/

/-- One step in the making of a report. -/
inductive Update where
  | diagnostics (batch : List Diagnostic)
  | fact (key : String) (value : Json)

namespace Update

def apply (report : Report) : Update → Report
  | diagnostics batch => report.withDiagnostics batch
  | fact key value => report.withFact key value

def batch? : Update → Option (List Diagnostic)
  | diagnostics batch => some batch
  | fact _ _ => none

/-- The value that an update gives to the fact of a name. -/
def value? (name : String) : Update → Option Json
  | diagnostics _ => none
  | fact key value => if name = key then some value else none

end Update

/-- What updates make of a clean report. -/
def built (updates : List Update) : Report :=
  updates.foldl Update.apply clean

/-- The diagnostics that were given last, or none. -/
def lastBatch (updates : List Update) : List Diagnostic :=
  (updates.reverse.findSome? Update.batch?).getD []

def lastValue? (updates : List Update) (name : String) : Option Json :=
  updates.reverse.findSome? (Update.value? name)

theorem built_concat (updates : List Update) (update : Update) :
    built (updates ++ [update]) = update.apply (built updates) := by
  simp [built]

theorem lastBatch_append (front back : List Update) :
    lastBatch (front ++ back) =
      (back.reverse.findSome? Update.batch?).getD (lastBatch front) := by
  rw [lastBatch, List.reverse_append, List.findSome?_append, lastBatch]
  cases back.reverse.findSome? Update.batch? <;> rfl

theorem lastValue?_append (front back : List Update) (name : String) :
    lastValue? (front ++ back) name = (lastValue? back name).or (lastValue? front name) := by
  simp [lastValue?, List.findSome?_append]

/-- A report shows the last diagnostics and the last value of every fact, and nothing else. -/
structure Reflects (report : Report) (updates : List Update) : Prop where
  schemaVersion : report.schemaVersion = schema
  ok : report.ok = true ↔ report.diagnostics = []
  arranged : Diagnostic.Arranged (lastBatch updates) report.diagnostics
  /-- Each key stands there once. -/
  ascending : Json.Ascending report.facts
  facts : ∀ key, report.facts.lookup key = lastValue? updates key

theorem reflects_clean : clean.Reflects [] :=
  ⟨rfl, by simp [clean], ⟨.nil, .nil, fun _ => rfl⟩, .nil, fun _ => rfl⟩

theorem Reflects.apply {report : Report} {updates : List Update}
    (reflects : report.Reflects updates) (update : Update) :
    (update.apply report).Reflects (updates ++ [update]) := by
  cases update with
  | diagnostics batch =>
    have arranged := arranged_withDiagnostics report batch
    constructor
    · exact reflects.schemaVersion
    · rw [Update.apply, ok_withDiagnostics, List.isEmpty_iff]
      constructor
      · rintro rfl
        exact arranged.permuted.eq_nil
      · intro nothing
        exact (nothing ▸ arranged.permuted).symm.eq_nil
    · rw [lastBatch_append]
      exact arranged
    · exact reflects.ascending
    · intro key
      rw [lastValue?_append]
      exact reflects.facts key
  | fact key value =>
    constructor
    · exact reflects.schemaVersion
    · exact reflects.ok
    · rw [lastBatch_append]
      exact reflects.arranged
    · exact reflects.ascending.put key value
    · intro name
      rw [Update.apply, lookup_withFact, lastValue?_append, reflects.facts]
      by_cases here : name = key <;> simp [lastValue?, Update.value?, here]

theorem reflects_built (updates : List Update) : (built updates).Reflects updates := by
  induction updates using List.reverseRecOn with
  | nil => exact reflects_clean
  | append_singleton updates update ih =>
    rw [built_concat]
    exact ih.apply update

/-- A report is known by the last diagnostics and the last values. -/
theorem Reflects.unique {report again : Report} {first second : List Update}
    (reflects : report.Reflects first) (other : again.Reflects second)
    (batches : lastBatch first = lastBatch second)
    (values : ∀ key, lastValue? first key = lastValue? second key) : report = again := by
  have diagnostics : report.diagnostics = again.diagnostics :=
    reflects.arranged.unique (batches ▸ other.arranged)
  have ok : report.ok = again.ok := by
    rw [Bool.eq_iff_iff, reflects.ok, other.ok, diagnostics]
  have facts : report.facts = again.facts := by
    apply reflects.ascending.eq_of_lookup other.ascending
    intro key
    rw [reflects.facts, other.facts, values]
  have schemaVersion := reflects.schemaVersion.trans other.schemaVersion.symm
  cases report
  cases again
  simp_all

theorem built_eq_of_last {first second : List Update}
    (batches : lastBatch first = lastBatch second)
    (values : ∀ key, lastValue? first key = lastValue? second key) : built first = built second :=
  (reflects_built first).unique (reflects_built second) batches values

/-- Two steps may change places, if they do not both give diagnostics nor a value to one fact. -/
theorem built_swap (before after : List Update) {one two : Update}
    (batches : one.batch? = none ∨ two.batch? = none)
    (values : ∀ key, one.value? key = none ∨ two.value? key = none) :
    built (before ++ one :: two :: after) = built (before ++ two :: one :: after) := by
  apply built_eq_of_last
  · rw [lastBatch_append, lastBatch_append]
    rcases batches with silent | silent <;>
      simp [List.findSome?_append, List.findSome?_cons, silent]
  · intro key
    rw [lastValue?_append, lastValue?_append]
    rcases values key with silent | silent <;>
      simp [lastValue?, List.findSome?_append, List.findSome?_cons, silent]

/-- Every report that is made in steps shows the last diagnostics, sorted, and the last value of
each fact.  So a fact and diagnostics, or two facts, may be given in either order, and steps that
end with the same diagnostics and the same values end with the same report. -/
theorem built_from_last :
    (∀ updates, (built updates).Reflects updates) ∧
      (∀ before after batch key value,
        built (before ++ .diagnostics batch :: .fact key value :: after) =
          built (before ++ .fact key value :: .diagnostics batch :: after)) ∧
      (∀ before after key other value held, key ≠ other →
        built (before ++ .fact key value :: .fact other held :: after) =
          built (before ++ .fact other held :: .fact key value :: after)) ∧
      ∀ first second, lastBatch first = lastBatch second →
        (∀ key, lastValue? first key = lastValue? second key) →
        built first = built second ∧ (built first).text = (built second).text := by
  refine ⟨reflects_built, ?_, ?_, ?_⟩
  · intro before after batch key value
    exact built_swap before after (.inr rfl) fun _ => .inl rfl
  · intro before after key other value held apart
    apply built_swap before after (.inl rfl)
    intro name
    by_cases here : name = key
    · exact .inr (if_neg (here ▸ apart))
    · exact .inl (if_neg here)
  · intro first second batches values
    have same := built_eq_of_last batches values
    exact ⟨same, congrArg text same⟩

/-- Diagnostics that are replaced and a fact that is, and the same without the detours and in
another order. -/
theorem built_from_last_detour :
    let first : List Update := [.fact "gate" (.string "open"), .diagnostics mixed, .diagnostics [],
      .fact "gate" (.string "closed"), .diagnostics mixed.reverse, .fact "a" .null]
    let second : List Update := [.fact "a" .null, .diagnostics mixed.reverse,
      .fact "gate" (.string "closed")]
    "gate" ≠ "a" ∧ lastBatch first = lastBatch second ∧
      (∀ key, lastValue? first key = lastValue? second key) ∧
      (built first).Reflects first ∧ built first = built second ∧
      (built first).text = (built second).text ∧
      built [.fact "gate" .null, .fact "a" .null] =
        built [.fact "a" .null, .fact "gate" .null] := by
  intro first second
  obtain ⟨reflects, -, exchange, same⟩ := built_from_last
  have batches : lastBatch first = lastBatch second := rfl
  have values : ∀ key, lastValue? first key = lastValue? second key := by
    intro key
    by_cases gate : key = "gate"
    · subst gate
      rfl
    · by_cases a : key = "a"
      · subst a
        rfl
      · simp [first, second, lastValue?, List.findSome?_cons, Update.value?, gate, a]
  obtain ⟨equal, text⟩ := same first second batches values
  exact ⟨by decide, batches, values, reflects first, equal, text,
    exchange [] [] "gate" "a" .null .null (by decide)⟩

end Report

end LinkGate
