import LinkGate.CallGraph.Basic
import LinkGate.Json.Record
import LinkGate.Json.Value

/-!
# Call graph documents

The JSON form of a call graph.  `CallGraph.read` takes bytes, `CallGraph.document` is the value that
is written: fields in the order of the types, `functions` and `col` always there, empty `calls` and
absent `pos` and `guard` left out.
-/

set_option autoImplicit false

namespace LinkGate

open Json (FieldReader Record Reader)

def Capability.reader : Reader Capability :=
  Reader.variant (Capability.all.map fun c => (c.name, c))

namespace SourcePos

structure Slots where
  file : Option String := none
  line : Option UInt32 := none
  col : Option UInt32 := none

def fields : List (FieldReader Slots) := [
  .slot "file" true Reader.string (·.file) (fun s x => { s with file := some x }),
  .slot "line" true Reader.uint32 (·.line) (fun s x => { s with line := some x }),
  .slot "col" false Reader.uint32 (·.col) (fun s x => { s with col := some x })]

def record : Record Slots SourcePos where
  name := "SourcePos"
  fields := fields
  strict := true
  empty := {}
  build s := ⟨s.file.getD "", s.line.getD 0, s.col.getD 0⟩

def json (pos : SourcePos) : Json :=
  .object [("file", .string pos.file), ("line", .integer pos.line.toNat),
    ("col", .integer pos.col.toNat)]

end SourcePos

namespace LinkGuard

structure Slots where
  capability : Option Capability := none
  enabled : Option Bool := none

def fields : List (FieldReader Slots) := [
  .slot "capability" true Capability.reader (·.capability)
    (fun s x => { s with capability := some x }),
  .slot "enabled" true Reader.boolean (·.enabled) (fun s x => { s with enabled := some x })]

def record : Record Slots LinkGuard where
  name := "LinkGuard"
  fields := fields
  strict := true
  empty := {}
  build s := ⟨s.capability.getD .threads, s.enabled.getD false⟩

def json (guard : LinkGuard) : Json :=
  .object [("capability", .string guard.capability.name), ("enabled", .bool guard.enabled)]

end LinkGuard

namespace CallSite

structure Slots where
  target : Option String := none
  pos : Option (Option SourcePos) := none
  guard : Option (Option LinkGuard) := none

def fields : List (FieldReader Slots) := [
  .slot "target" true Reader.string (·.target) (fun s x => { s with target := some x }),
  .slot "pos" false (Reader.optional SourcePos.record.reader) (·.pos)
    (fun s x => { s with pos := some x }),
  .slot "guard" false (Reader.optional LinkGuard.record.reader) (·.guard)
    (fun s x => { s with guard := some x })]

def record : Record Slots CallSite where
  name := "CallSite"
  fields := fields
  strict := true
  empty := {}
  build s := ⟨s.target.getD "", s.pos.getD none, s.guard.getD none⟩

def json (call : CallSite) : Json :=
  .object (("target", .string call.target) ::
    (call.pos.toList.map fun pos => ("pos", pos.json)) ++
    (call.guard.toList.map fun guard => ("guard", guard.json)))

end CallSite

namespace FunctionNode

structure Slots where
  name : Option String := none
  calls : Option (List CallSite) := none

def fields : List (FieldReader Slots) := [
  .slot "name" true Reader.string (·.name) (fun s x => { s with name := some x }),
  .slot "calls" false (Reader.list CallSite.record.reader) (·.calls)
    (fun s x => { s with calls := some x })]

def record : Record Slots FunctionNode where
  name := "FunctionNode"
  fields := fields
  strict := true
  empty := {}
  build s := ⟨s.name.getD "", s.calls.getD []⟩

def json (f : FunctionNode) : Json :=
  let name := ("name", Json.string f.name)
  let calls := ("calls", Json.array (f.calls.map CallSite.json))
  .object (if f.calls.isEmpty then [name] else [name, calls])

end FunctionNode

namespace CallGraph

structure Slots where
  schemaVersion : Option String := none
  entryPoints : Option (List String) := none
  functions : Option (List FunctionNode) := none

def fields : List (FieldReader Slots) := [
  .slot "schema_version" true Reader.string (·.schemaVersion)
    (fun s x => { s with schemaVersion := some x }),
  .slot "entry_points" true (Reader.list Reader.string) (·.entryPoints)
    (fun s x => { s with entryPoints := some x }),
  .slot "functions" false (Reader.list FunctionNode.record.reader) (·.functions)
    (fun s x => { s with functions := some x })]

def record : Record Slots CallGraph where
  name := "CallGraph"
  fields := fields
  strict := true
  empty := {}
  build s := ⟨s.schemaVersion.getD "", s.entryPoints.getD [], s.functions.getD []⟩

def json (graph : CallGraph) : Json :=
  .object [("schema_version", .string graph.schemaVersion),
    ("entry_points", .strings graph.entryPoints),
    ("functions", .array (graph.functions.map FunctionNode.json))]

/-- The graph of a document.  Blanks around the schema's name do not count. -/
def read (text : Bytes) : Except GraphError CallGraph :=
  match record.reader.run text with
  | .error error => .error (.unreadable error)
  | .ok graph =>
    if trim graph.schemaVersion = schema then .ok graph
    else .error (.foreignSchema graph.schemaVersion)

/-- The compact text of a graph. -/
def document (graph : CallGraph) : String :=
  graph.json.text

end CallGraph

end LinkGate
