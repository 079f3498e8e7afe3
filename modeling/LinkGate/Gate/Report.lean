import LinkGate.Gate.Walk
import LinkGate.Report.Basic

/-!
# Reports on a gate

Each hit of an outcome becomes one diagnostic, placed at its call; the state of the gate is a fact
of the report.  A graph that cannot be checked is reported as one diagnostic, placed at its file.
-/

set_option autoImplicit false

namespace LinkGate

def unsupportedFeatureCode : String :=
  "NB-REACH-UNSUPPORTED-0001"

def invalidGraphCode : String :=
  "NB-REACH-GRAPH-0001"

namespace Hit

def summary (hit : Hit) : String :=
  let description := hit.capability.description
  if hit.enabled then
    s!"unsupported feature: marker for {hit.capability.name} is reachable although " ++
      s!"{description} is enabled"
  else s!"unsupported feature: {description} is disabled in this build but reachable"

def advice (hit : Hit) : String :=
  if hit.enabled then "the link-time guard in front of the marker is missing or inverted"
  else
    s!"guard the call with a link-time check for {hit.capability.name} or enable it in the " ++
      "link config"

def diagnostic (hit : Hit) : Diagnostic where
  code := unsupportedFeatureCode
  stage := .link
  message := hit.summary
  location := some (.callSite hit.caller hit.pos)
  notes := [hit.trailText, hit.advice]
  data := Json.collect [
    ("capability", .string hit.capability.name),
    ("capability_enabled", .bool hit.enabled),
    ("trail", .strings hit.trail)]

end Hit

def Outcome.report (outcome : Outcome) : Report :=
  Report.clean.withDiagnostics (outcome.hits.map Hit.diagnostic)
    |>.withFact "check_features" (.bool outcome.checked)
    |>.withFact "gate" (.string outcome.state.name)
    |>.withFact "reachable_functions" (.integer outcome.reachable)

/-- The report on a graph file that holds no graph that can be checked. -/
def GraphError.report (error : GraphError) (file : String) : Report :=
  Report.clean.withDiagnostics
    [{ code := invalidGraphCode
       stage := .parse
       message := error.message
       location := some (.file file) }]

end LinkGate
