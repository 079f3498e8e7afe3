import LinkGate.Gate.Basic

/-!
# Walking a call graph

The walk goes breadth first from the entry points along live calls.  It notes for every name the
function that led to it first, and for every marker use a hit whose trail follows these notes back.
Names that no function defines are leaves, and markers are never walked into.
-/

set_option autoImplicit false

namespace LinkGate

/-- For each name that has been reached, in order, the function that led to it.  An entry point has
none. -/
abbrev Callers := List (String × Option String)

namespace Callers

def reached (callers : Callers) (name : String) : Bool :=
  (callers.lookup name).isSome

/-- From a name back to an entry point.  One fuel unit is spent per link. -/
def backWithin (callers : Callers) : Nat → String → List String
  | 0, name => [name]
  | fuel + 1, name =>
    match callers.lookup name with
    | some (some caller) => name :: callers.backWithin fuel caller
    | _ => [name]

/-- From an entry point to a name.  No name occurs twice on the way, so their number is enough. -/
def trail (callers : Callers) (name : String) : List String :=
  (callers.backWithin callers.length name).reverse

end Callers

structure Walk where
  callers : Callers := []
  /-- Names that have been reached and whose calls have not been looked at. -/
  queue : List String := []
  hits : List Hit := []

namespace Walk

/-- Notes a name, unless it was reached before. -/
def reach (walk : Walk) (name : String) (caller : Option String) : Walk :=
  if walk.callers.reached name then walk
  else
    { walk with
      callers := walk.callers ++ [(name, caller)]
      queue := walk.queue ++ [name] }

def report (walk : Walk) (hit : Hit) : Walk :=
  { walk with hits := walk.hits ++ [hit] }

def enter (config : LinkConfig) (walk : Walk) (entry : String) : Walk :=
  match Capability.ofMarker? entry with
  | none => walk.reach entry none
  | some c =>
    walk.report
      { capability := c
        caller := entry
        pos := none
        trail := [entry]
        enabled := config.supports c }

def follow (config : LinkConfig) (name : String) (walk : Walk) (call : CallSite) : Walk :=
  if call.Live config then
    match Capability.ofMarker? call.target with
    | none => walk.reach call.target (some name)
    | some c =>
      walk.report
        { capability := c
          caller := name
          pos := call.pos
          trail := walk.callers.trail name ++ [call.target]
          enabled := config.supports c }
  else walk

def visit (config : LinkConfig) (index : CallGraph.Index) (walk : Walk) (name : String) : Walk :=
  (index.calls name).foldl (follow config name) walk

/-- Empties the queue.  One fuel unit is spent per name. -/
def runWithin (config : LinkConfig) (index : CallGraph.Index) : Nat → Walk → Walk
  | 0, walk => walk
  | fuel + 1, walk =>
    match walk.queue with
    | [] => walk
    | name :: rest =>
      runWithin config index fuel (visit config index { walk with queue := rest } name)

def outcome (walk : Walk) : Outcome where
  state := if walk.hits = [] then .opened else .closed
  hits := walk.hits
  checked := true
  reachable := walk.callers.length

end Walk

namespace CallGraph

def begin (graph : CallGraph) (config : LinkConfig) : Walk :=
  graph.entryPoints.foldl (Walk.enter config) {}

/-- Each mention of a name in the graph puts it into the queue at most once. -/
def walk (graph : CallGraph) (config : LinkConfig) (index : Index) : Walk :=
  Walk.runWithin config index graph.mentions (graph.begin config)

/-- A graph is always held to its rules; it is walked where the configuration asks for it. -/
def check (graph : CallGraph) (config : LinkConfig) : Except GraphError Outcome :=
  match graph.index with
  | .error error => .error error
  | .ok index =>
    if config.checkFeatures then .ok (graph.walk config index).outcome else .ok .skipped

end CallGraph

inductive GateError where
  | invalid (error : GraphError)
  | closed (abort : Abort)
  deriving DecidableEq, Repr

def GateError.message : GateError → String
  | invalid error => error.message
  | closed abort => abort.message

/-- The outcome of a check whose gate is open. -/
def CallGraph.enforce (graph : CallGraph) (config : LinkConfig) : Except GateError Outcome :=
  match graph.check config with
  | .error error => .error (.invalid error)
  | .ok outcome => outcome.result.mapError .closed

end LinkGate
