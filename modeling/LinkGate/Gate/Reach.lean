import LinkGate.CallGraph.Basic

/-!
# Reachable functions

What the walk of a call graph finds, said without a walk: a name is reachable when it is an entry
point or the target of a live call that a reachable function makes, and no marker.  A marker is used
where it is listed as an entry point or where a reachable function makes a live call to it.
-/

set_option autoImplicit false

namespace LinkGate.CallGraph

/-- A function named `caller` makes a live call to `target`. -/
def Calls (graph : CallGraph) (config : LinkConfig) (caller target : String) : Prop :=
  ∃ f ∈ graph.functions, f.name = caller ∧
    ∃ call ∈ f.calls, call.Live config ∧ call.target = target

inductive Reachable (graph : CallGraph) (config : LinkConfig) : String → Prop where
  | entry {name : String} (listed : name ∈ graph.entryPoints)
      (plain : Capability.ofMarker? name = none) : Reachable graph config name
  | call {caller target : String} (reached : Reachable graph config caller)
      (calls : graph.Calls config caller target)
      (plain : Capability.ofMarker? target = none) : Reachable graph config target

/-- A place where a graph names something: an entry point, or a call of a function, by position. -/
inductive Mention where
  | entry (position : Nat)
  | call (function position : Nat)
  deriving DecidableEq, Repr

/-- The name that stands at a mention, as it is written there. -/
def textAt? (graph : CallGraph) : Mention → Option String
  | .entry position => graph.entryPoints[position]?
  | .call function position => do
    let f ← graph.functions[function]?
    let call ← f.calls[position]?
    return call.target

/-- The marker of `c` is used at a mention that is never left out.  `caller` and `pos` are what is
told about the place. -/
inductive MarkerUse (graph : CallGraph) (config : LinkConfig) :
    Mention → Capability → String → Option SourcePos → Prop where
  | entry {position : Nat} {entry : String} {c : Capability}
      (listed : graph.entryPoints[position]? = some entry)
      (marker : Capability.ofMarker? entry = some c) :
      MarkerUse graph config (.entry position) c entry none
  | call {function position : Nat} {f : FunctionNode} {call : CallSite} {c : Capability}
      (defined : graph.functions[function]? = some f)
      (made : f.calls[position]? = some call)
      (reached : graph.Reachable config f.name)
      (live : call.Live config)
      (marker : Capability.ofMarker? call.target = some c) :
      MarkerUse graph config (.call function position) c f.name call.pos

def UsesMarker (graph : CallGraph) (config : LinkConfig) (mention : Mention) : Prop :=
  ∃ c caller pos, graph.MarkerUse config mention c caller pos

end LinkGate.CallGraph
