import LinkGate.Config.Basic
import LinkGate.Json.Fault

/-!
# Call graphs

A program as its calls: which function calls what, where, and behind which link-time guard.  Names
are exact texts; a call may name a function that the graph does not define.  `index` refuses a graph
whose functions cannot be told apart by name.
-/

set_option autoImplicit false

namespace LinkGate

structure SourcePos where
  file : String
  line : UInt32
  col : UInt32
  deriving DecidableEq, Repr

def SourcePos.text (pos : SourcePos) : String :=
  s!"{pos.file}:{pos.line.toNat}:{pos.col.toNat}"

structure CallSite where
  target : String
  pos : Option SourcePos
  guard : Option LinkGuard
  deriving DecidableEq, Repr

/-- A call is live when no guard folds it away. -/
def CallSite.Live (call : CallSite) (config : LinkConfig) : Prop :=
  ∀ guard ∈ call.guard, guard.Holds config

instance (call : CallSite) (config : LinkConfig) : Decidable (call.Live config) :=
  match h : call.guard with
  | none => isTrue (by simp [CallSite.Live, h])
  | some guard =>
    if held : guard.Holds config then isTrue (by simpa [CallSite.Live, h] using held)
    else isFalse (by simpa [CallSite.Live, h] using held)

structure FunctionNode where
  name : String
  calls : List CallSite
  deriving DecidableEq, Repr

structure CallGraph where
  schemaVersion : String
  entryPoints : List String
  functions : List FunctionNode
  deriving DecidableEq, Repr

namespace CallGraph

def schema : String :=
  "nbridge.callgraph@0.1.0"

end CallGraph

inductive GraphError where
  | unreadable (error : Json.ReadError)
  | foreignSchema (found : String)
  | duplicateFunction (name : String)
  | emptyName (index : Nat)
  deriving DecidableEq, Repr

def GraphError.message : GraphError → String
  | unreadable error => s!"parse call graph: {error.message}"
  | foreignSchema found =>
    s!"call graph schema_version {quoted found} (expected {quoted CallGraph.schema})"
  | duplicateFunction name => s!"duplicate function in call graph: {name}"
  | emptyName index => s!"function name is empty (functions[{index}])"

/-- The errors below this one, outermost first. -/
def GraphError.sources : GraphError → List String
  | unreadable error => [error.message]
  | foreignSchema _ | duplicateFunction _ | emptyName _ => []

namespace CallGraph

abbrev Index := List (String × FunctionNode)

/-- Adds functions to an index in order.  The first one that is nameless, or named like one before
it, is an error; `position` is where in the graph the list begins. -/
def indexFrom : Nat → List FunctionNode → Index → Except GraphError Index
  | _, [], index => .ok index
  | position, f :: rest, index =>
    if trim f.name = "" then .error (.emptyName position)
    else if (index.lookup f.name).isSome then .error (.duplicateFunction f.name)
    else indexFrom (position + 1) rest (index ++ [(f.name, f)])

def index (graph : CallGraph) : Except GraphError Index :=
  indexFrom 0 graph.functions []

/-- The calls of a function; one that is not defined makes none. -/
def Index.calls (index : Index) (name : String) : List CallSite :=
  match index.lookup name with
  | some f => f.calls
  | none => []

/-- How many times the graph names something that can be reached. -/
def mentions (graph : CallGraph) : Nat :=
  graph.functions.foldl (fun count f => count + f.calls.length) graph.entryPoints.length

end CallGraph

end LinkGate
