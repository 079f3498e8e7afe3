import LinkGate.CommandLine.Arguments
import LinkGate.Gate.Report
import LinkGate.Log.Filter

/-!
# Running a command

A command ends with an exit code and what it has written, and notes events on its way.  Code 0 means
that all is well, 1 that the gate is closed, 2 that the command could not do its work; then the last
line on the error stream is the error with the errors below it.
-/

set_option autoImplicit false

namespace LinkGate

structure Ending where
  exitCode : Nat
  stdout : String
  /-- What is written to the error stream behind the events. -/
  stderr : String
  events : List Event
  deriving DecidableEq, Repr

namespace Ending

/-- The error stream, as far as the filter lets events through. -/
def errorStream (ending : Ending) (filter : Filter) : String :=
  let shown := ending.events.filter filter.admits
  String.join (shown.map fun event => event.line ++ "\n") ++ ending.stderr

def printed (exitCode : Nat) (value : Json) (events : List Event) : Ending where
  exitCode := exitCode
  stdout := value.text ++ "\n"
  stderr := ""
  events := events

/-- An error, what it happened in and what is below it. -/
def failed (chain : List String) (events : List Event) : Ending where
  exitCode := 2
  stdout := ""
  stderr := String.intercalate ": " chain ++ "\n"
  events := events

end Ending

def LinkConfig.event (config : LinkConfig) : Event where
  level := .debug
  target := "nbridge_caps::config"
  message := "resolved link config"
  fields := [("multithreading", toString config.multithreading),
    ("virtual_threads", toString config.virtualThreads),
    ("continuations", toString config.continuations),
    ("check_features", toString config.checkFeatures)]

def featuresSchema : String :=
  "nbridge.features.report@0.1.0"

def Capability.featureJson (config : LinkConfig) (c : Capability) : Json :=
  .object [("name", .string c.name), ("description", .string c.description),
    ("symbol", .string c.markerSymbol), ("rust_path", .string c.markerPath),
    ("enabled", .bool (config.supports c))]

/-- The report on all capabilities, or on the one that is asked for. -/
def LinkConfig.features (config : LinkConfig) (wanted : Option Capability) : Json :=
  let shown := Capability.all.filter fun c => wanted.all (· == c)
  .object [("schema_version", .string featuresSchema), ("config", config.json),
    ("enabled", .strings (config.enabled.map Capability.name)),
    ("features", .array (shown.map (Capability.featureJson config)))]

namespace CallGraph

def target : String :=
  "nbridge_reach::check"

/-- The entry points that are neither markers nor functions of the graph. -/
def undefinedEntries (graph : CallGraph) (index : Index) : List String :=
  graph.entryPoints.filter fun entry =>
    (Capability.ofMarker? entry).isNone && (index.lookup entry).isNone

/-- A hit on an entry point has no call that leads to it, and is not noted. -/
def hitEvent? (hit : Hit) : Option Event :=
  if hit.trail.length ≤ 1 then none
  else some ⟨.debug, target, "marker reachable",
    [("capability", hit.capability.name), ("caller", quoted hit.caller)]⟩

def checkEvents (graph : CallGraph) (index : Index) (outcome : Outcome) : List Event :=
  if outcome.checked then
    (graph.undefinedEntries index).map (fun entry => ⟨.warn, target,
      "entry point is not defined in the call graph", [("entry", quoted entry)]⟩) ++
    outcome.hits.filterMap hitEvent? ++
    [⟨.info, target, "unsupported feature check finished",
      [("reachable", toString outcome.reachable), ("markers", toString outcome.hits.length)]⟩]
  else [⟨.info, target, "unsupported feature checking disabled", []⟩]

def checkDocument (text : Bytes) (config : LinkConfig) :
    Except GraphError (Outcome × List Event) := do
  let graph ← read text
  let index ← graph.index
  let outcome ← graph.check config
  return (outcome, graph.checkEvents index outcome)

end CallGraph

namespace Outcome

def exitCode (outcome : Outcome) : Nat :=
  if outcome.isOpen then 0 else 1

def verdict (outcome : Outcome) : String :=
  if !outcome.checked then "gate open (feature checking disabled)"
  else if outcome.isOpen then s!"gate open ({outcome.reachable} reachable functions)"
  else s!"gate closed ({outcome.hits.length} unsupported feature use(s))"

end Outcome

/-- The report of a command on the file it was given. -/
def Report.ofCheck (report : Report) (file : String) (exitCode : Nat) : Json :=
  .object ([("command", .string "check"), ("in", .string file),
    ("diagnostics_count", .integer report.diagnostics.length),
    ("exit_code", .integer exitCode)] ++ report.members)

namespace Command

def link : Command → LinkRequest
  | features link _ => link
  | check link _ _ => link
  | config link => link

def checkFile (world : World) (config : LinkConfig) (path : Path) (reportJson : Bool) : Ending :=
  let file := path.text
  let noted := [config.event,
    ⟨.debug, "nbridge", "check",
      [("graph", file), ("check_features", toString config.checkFeatures)]⟩]
  match world.read path with
  | .error error => .failed [s!"read call graph: {file}", error.message] noted
  | .ok text =>
    match CallGraph.checkDocument text config with
    | .error error =>
      if reportJson then .printed 2 ((error.report file).ofCheck file 2) noted
      else .failed (s!"call graph: {file}" :: error.message :: error.sources) noted
    | .ok (outcome, events) =>
      if reportJson then
        .printed outcome.exitCode (outcome.report.ofCheck file outcome.exitCode) (noted ++ events)
      else
        { exitCode := outcome.exitCode
          stdout := outcome.verdict ++ "\n"
          stderr := String.join (outcome.hits.map fun hit => s!"error: {hit.text}\n")
          events := noted ++ events }

def run (world : World) (command : Command) : Ending :=
  match LinkConfig.resolve world command.link.config command.link.given with
  | .error error => .failed ("resolve link config" :: error.message :: error.sources) []
  | .ok resolved =>
    match command with
    | features _ wanted => .printed 0 (resolved.features wanted) [resolved.event]
    | config _ => .printed 0 resolved.json [resolved.event]
    | check _ graph reportJson => checkFile world resolved graph reportJson

end Command

def logVariable : String :=
  "NBRIDGE_LOG"

namespace Invocation

def run (world : World) (invocation : Invocation) : Ending :=
  invocation.command.run world

/-- The error stream of a run, events that the environment asks for included. -/
def errorStream (world : World) (invocation : Invocation) : String :=
  (invocation.run world).errorStream
    (.ofEnvironment (world.environment logVariable) invocation.verbose)

end Invocation

end LinkGate
