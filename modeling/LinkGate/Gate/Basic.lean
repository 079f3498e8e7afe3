import LinkGate.CallGraph.Basic

/-!
# The gate

A build may pass when no marker can be reached.  An `Outcome` says whether the gate is open, and
lists each marker use that can be reached as a `Hit`, with a call path that leads to it.  A closed
gate turns into an `Abort`, which shows its first hit in full.
-/

set_option autoImplicit false

namespace LinkGate

structure Hit where
  capability : Capability
  /-- The function that makes the call; for an entry point that is a marker, the marker. -/
  caller : String
  pos : Option SourcePos
  /-- From an entry point to the marker. -/
  trail : List String
  /-- The configuration provides the capability, so that a guard is missing or turned around. -/
  enabled : Bool
  deriving DecidableEq, Repr

def arrow : String := " -> "

namespace Hit

def trailText (hit : Hit) : String :=
  s!"call path: {String.intercalate arrow hit.trail}"

def reason (hit : Hit) : String :=
  let description := hit.capability.description
  if hit.enabled then
    s!"marker reachable although {description} is enabled; guard missing or inverted"
  else s!"{description} is disabled"

def text (hit : Hit) : String :=
  let place :=
    match hit.pos with
    | none => ""
    | some pos => s!" ({pos.text})"
  s!"unsupported feature: {hit.capability.name} ({hit.reason})\n  at {hit.caller}{place}" ++
    s!"\n  {hit.trailText}"

end Hit

inductive GateState where
  | opened
  | closed
  deriving DecidableEq, Repr

def GateState.name : GateState → String
  | opened => "open"
  | closed => "closed"

structure Outcome where
  state : GateState
  hits : List Hit
  checked : Bool
  /-- The number of names that can be reached. -/
  reachable : Nat
  deriving DecidableEq, Repr

structure Abort where
  hits : List Hit
  deriving DecidableEq, Repr

def Abort.message (abort : Abort) : String :=
  let first :=
    match abort.hits with
    | [] => "unsupported feature detected"
    | hit :: _ => hit.text
  let more := abort.hits.length - 1
  if more = 0 then first else s!"{first}\n  ({more} more unsupported feature use(s))"

namespace Outcome

/-- What is known when nothing was walked. -/
def skipped : Outcome where
  state := .opened
  hits := []
  checked := false
  reachable := 0

def isOpen (outcome : Outcome) : Bool :=
  outcome.state == .opened

def result (outcome : Outcome) : Except Abort Outcome :=
  match outcome.state with
  | .opened => .ok outcome
  | .closed => .error ⟨outcome.hits⟩

end Outcome

end LinkGate
