import LinkGate.Config.Basic
import LinkGate.Json.Record
import LinkGate.Json.Value

/-!
# Link configuration documents

A configuration file is a JSON record that names its schema and gives any of the four settings;
`null` is as good as leaving one out.
-/

set_option autoImplicit false

namespace LinkGate.LinkConfig

open Json (FieldReader Record Reader)

def schema : String :=
  "nbridge.link-config@0.1.0"

inductive DocumentError where
  | unreadable (error : Json.ReadError)
  | foreignSchema (found : String)
  deriving DecidableEq, Repr

structure Slots where
  schemaVersion : Option String := none
  multithreading : Option (Option Bool) := none
  virtualThreads : Option (Option Bool) := none
  continuations : Option (Option Bool) := none
  checkFeatures : Option (Option Bool) := none

def fields : List (FieldReader Slots) := [
  .slot "schema_version" true Reader.string (·.schemaVersion)
    (fun s x => { s with schemaVersion := some x }),
  .slot Setting.multithreading.key false (Reader.optional Reader.boolean) (·.multithreading)
    (fun s x => { s with multithreading := some x }),
  .slot Setting.virtualThreads.key false (Reader.optional Reader.boolean) (·.virtualThreads)
    (fun s x => { s with virtualThreads := some x }),
  .slot Setting.continuations.key false (Reader.optional Reader.boolean) (·.continuations)
    (fun s x => { s with continuations := some x }),
  .slot Setting.checkFeatures.key false (Reader.optional Reader.boolean) (·.checkFeatures)
    (fun s x => { s with checkFeatures := some x })]

def record : Record Slots (String × Overrides) where
  name := "LinkConfigFile"
  fields := fields
  strict := true
  empty := {}
  build s := (s.schemaVersion.getD "",
    ⟨s.multithreading.getD none, s.virtualThreads.getD none, s.continuations.getD none,
      s.checkFeatures.getD none⟩)

/-- The settings of a document.  Blanks around the schema's name do not count. -/
def Overrides.read (text : Bytes) : Except DocumentError Overrides :=
  match record.reader.run text with
  | .error error => .error (.unreadable error)
  | .ok (version, given) =>
    if trim version = schema then .ok given else .error (.foreignSchema version)

def json (config : LinkConfig) : Json :=
  .object (Setting.all.map fun setting => (setting.key, .bool (config.get setting)))

end LinkGate.LinkConfig
