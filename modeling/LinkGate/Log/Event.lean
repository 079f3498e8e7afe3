/-!
# Log events

What a run notes about itself while it works.  An event has a level, a target that names the part of
the program it comes from, a message, and named fields with their values.
-/

set_option autoImplicit false

namespace LinkGate

inductive Level where
  | error
  | warn
  | info
  | debug
  | trace
  deriving DecidableEq, Repr

namespace Level

/-- The graver, the less; zero is left for no level at all. -/
def rank : Level → Nat
  | error => 1
  | warn => 2
  | info => 3
  | debug => 4
  | trace => 5

/-- Five columns, flush right. -/
def tag : Level → String
  | error => "ERROR"
  | warn => " WARN"
  | info => " INFO"
  | debug => "DEBUG"
  | trace => "TRACE"

end Level

structure Event where
  level : Level
  target : String
  message : String
  fields : List (String × String)
  deriving DecidableEq, Repr

namespace Event

/-- The name under which the message itself counts as a field. -/
def messageField : String := "message"

def carries (event : Event) (name : String) : Bool :=
  name == messageField || event.fields.any (·.1 == name)

def line (event : Event) : String :=
  let fields := event.fields.map fun (name, value) => s!" {name}={value}"
  s!"{event.level.tag} {event.target}: {event.message}" ++ String.join fields

end Event

end LinkGate
