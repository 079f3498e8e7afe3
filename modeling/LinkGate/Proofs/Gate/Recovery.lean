import LinkGate.Proofs.Report.Order

/-!
# Outcomes read from their reports

A report tells of each hit as often as it occurs, and of nothing else, whatever outcome it was made
from.  `Report.outcome?` reads the outcome back; only the order of its hits is lost.
-/

set_option autoImplicit false

namespace LinkGate

namespace Json

def text? : Json → Option String
  | string s => some s
  | _ => none

def texts? : Json → Option (List String)
  | array elements => elements.mapM text?
  | _ => none

theorem texts?_strings (items : List String) : (strings items).texts? = some items := by
  rw [strings, texts?]
  induction items with
  | nil => rfl
  | cons item rest ih => simp [List.mapM_cons, text?, ih]

end Json

theorem Capability.named?_name (c : Capability) : named? c.name = some c := by
  cases c <;> decide

def GateState.named? (text : String) : Option GateState :=
  [opened, closed].find? fun state => state.name == text

theorem GateState.named?_name (state : GateState) : named? state.name = some state := by
  cases state <;> decide

/-! ## Diagnostics -/

/-- What a diagnostic tells of a hit: the place of the call, and of its data the capability, the
trail, and whether the capability is enabled. -/
structure Evidence where
  place : Option Location
  capability : Option Json
  trail : Option Json
  enabled : Option Json

def Diagnostic.evidence (d : Diagnostic) : Evidence where
  place := d.location
  capability := d.data.lookup "capability"
  trail := d.data.lookup "trail"
  enabled := d.data.lookup "capability_enabled"

def Hit.evidence (hit : Hit) : Evidence where
  place := some (.callSite hit.caller hit.pos)
  capability := some (.string hit.capability.name)
  trail := some (.strings hit.trail)
  enabled := some (.bool hit.enabled)

def Evidence.hit? : Evidence → Option Hit
  | ⟨some (.callSite caller pos), some (.string name), some trail, some (.bool enabled)⟩ => do
    let capability ← Capability.named? name
    let names ← trail.texts?
    some ⟨capability, caller, pos, names, enabled⟩
  | _ => none

namespace Hit

theorem evidence_diagnostic (hit : Hit) : hit.diagnostic.evidence = hit.evidence := by
  simp [Diagnostic.evidence, evidence, diagnostic, Json.collect, Json.lookup_put]

theorem hit?_evidence (hit : Hit) : hit.evidence.hit? = some hit := by
  simp [evidence, Evidence.hit?, Capability.named?_name, Json.texts?_strings]

end Hit

/-! ## Reports -/

/-- The report of `outcome` holds nothing else. -/
structure Report.TellsOf (report : Report) (outcome : Outcome) : Prop where
  evidence : (report.diagnostics.map Diagnostic.evidence).Perm (outcome.hits.map Hit.evidence)
  kind : ∀ d ∈ report.diagnostics, d.code = unsupportedFeatureCode ∧ d.stage = .link
  ordered : report.diagnostics.Pairwise Diagnostic.NotAfter
  ok : report.ok = true ↔ outcome.hits = []
  facts : report.facts = [("check_features", .bool outcome.checked),
    ("gate", .string outcome.state.name), ("reachable_functions", .integer outcome.reachable)]

/-- The outcome that a report tells of. -/
def Report.outcome? (report : Report) : Option Outcome :=
  match report.facts.lookup "check_features", report.facts.lookup "gate",
    report.facts.lookup "reachable_functions" with
  | some (.bool checked), some (.string gate), some (.integer reachable) => do
    let state ← GateState.named? gate
    some ⟨state, report.diagnostics.filterMap fun d => d.evidence.hit?, checked, reachable.toNat⟩
  | _, _, _ => none

namespace Outcome

/-- Two outcomes that differ in the order of their hits, if at all. -/
structure Reordered (a b : Outcome) : Prop where
  state : a.state = b.state
  hits : a.hits.Perm b.hits
  checked : a.checked = b.checked
  reachable : a.reachable = b.reachable

variable (outcome : Outcome)

theorem report_diagnostics_perm :
    outcome.report.diagnostics.Perm (outcome.hits.map Hit.diagnostic) :=
  Report.diagnostics_perm .clean _

theorem facts_report :
    outcome.report.facts = [("check_features", .bool outcome.checked),
      ("gate", .string outcome.state.name), ("reachable_functions", .integer outcome.reachable)] :=
  rfl

theorem tellsOf_report : outcome.report.TellsOf outcome := by
  have permuted := outcome.report_diagnostics_perm
  constructor
  · have told := permuted.map Diagnostic.evidence
    simp only [List.map_map, Function.comp_def, Hit.evidence_diagnostic] at told
    exact told
  · intro d member
    obtain ⟨hit, -, rfl⟩ := List.mem_map.mp (permuted.mem_iff.mp member)
    exact ⟨rfl, rfl⟩
  · exact Report.diagnostics_ordered .clean _
  · rw [ok_report, List.isEmpty_iff]
  · exact outcome.facts_report

theorem outcome?_report :
    ∃ again, outcome.report.outcome? = some again ∧ again.Reordered outcome := by
  refine ⟨⟨outcome.state, outcome.report.diagnostics.filterMap fun d => d.evidence.hit?,
    outcome.checked, outcome.reachable⟩, ?_, rfl, ?_, rfl, rfl⟩
  · simp [Report.outcome?, facts_report, lookup_cons_eq, GateState.named?_name]
  · have told := outcome.report_diagnostics_perm.filterMap fun d => d.evidence.hit?
    simp only [List.filterMap_map, Function.comp_def, Hit.evidence_diagnostic, Hit.hit?_evidence,
      List.filterMap_some] at told
    exact told

/-- Nothing is lost but the order of the hits, and nothing is added. -/
theorem report_lossless :
    outcome.report.TellsOf outcome ∧
      ∃ again, outcome.report.outcome? = some again ∧ again.Reordered outcome :=
  ⟨outcome.tellsOf_report, outcome.outcome?_report⟩

end Outcome

end LinkGate
