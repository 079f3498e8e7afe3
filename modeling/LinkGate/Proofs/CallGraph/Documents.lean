import LinkGate.CallGraph.Document
import LinkGate.Proofs.Json.Records

/-!
# Call graph documents read back

Writing leaves out what reading fills in: empty calls, an absent position, an absent guard.  So a
graph is what its own document reads as, for any names and positions, as long as its schema is the
one that is read.
-/

set_option autoImplicit false

namespace LinkGate

open Json Json.Record

theorem Capability.reads (c : Capability) : Reads Capability.reader (.string c.name) c :=
  reads_variant (by cases c <;> decide)

theorem SourcePos.reads (pos : SourcePos) : Reads SourcePos.record.reader pos.json pos := by
  have fills : Fills SourcePos.record {}
      [("file", .string pos.file), ("line", .integer pos.line.toNat),
        ("col", .integer pos.col.toNat)]
      ⟨some pos.file, some pos.line, some pos.col⟩ :=
    .cons rfl rfl (reads_string pos.file).slot
      (.cons rfl rfl (reads_uint32 pos.line).slot
        (.cons rfl rfl (reads_uint32 pos.col).slot (.nil _)))
  exact fills.reads rfl

theorem LinkGuard.reads (guard : LinkGuard) : Reads LinkGuard.record.reader guard.json guard := by
  have fills : Fills LinkGuard.record {}
      [("capability", .string guard.capability.name), ("enabled", .bool guard.enabled)]
      ⟨some guard.capability, some guard.enabled⟩ :=
    .cons rfl rfl (Capability.reads guard.capability).slot
      (.cons rfl rfl (reads_boolean guard.enabled).slot (.nil _))
  exact fills.reads rfl

theorem CallSite.reads (call : CallSite) : Reads CallSite.record.reader call.json call := by
  have built : CallSite.record.build ⟨some call.target, call.pos.map some, call.guard.map some⟩ =
      call := by
    obtain ⟨target, pos, guard⟩ := call
    cases pos <;> cases guard <;> rfl
  have target : Fills CallSite.record {} [("target", .string call.target)]
      ⟨some call.target, none, none⟩ :=
    .cons rfl rfl (reads_string call.target).slot (.nil _)
  -- what is absent is not written, and its slot stays empty
  have pos : Fills CallSite.record ⟨some call.target, none, none⟩
      (call.pos.toList.map fun pos => ("pos", pos.json))
      ⟨some call.target, call.pos.map some, none⟩ := by
    cases call.pos with
    | none => exact .nil _
    | some pos => exact .cons rfl rfl ((SourcePos.reads pos).some (by nofun)).slot (.nil _)
  have guard : Fills CallSite.record ⟨some call.target, call.pos.map some, none⟩
      (call.guard.toList.map fun guard => ("guard", guard.json))
      ⟨some call.target, call.pos.map some, call.guard.map some⟩ := by
    cases call.guard with
    | none => exact .nil _
    | some guard => exact .cons rfl rfl ((LinkGuard.reads guard).some (by nofun)).slot (.nil _)
  have reads := ((target.append pos).append guard).reads rfl
  rw [built] at reads
  exact reads

theorem FunctionNode.reads (f : FunctionNode) : Reads FunctionNode.record.reader f.json f := by
  obtain ⟨name, calls⟩ := f
  have fills : Fills FunctionNode.record {} [("name", .string name)] ⟨some name, none⟩ :=
    .cons rfl rfl (reads_string name).slot (.nil _)
  cases calls with
  | nil => exact fills.reads rfl
  | cons call calls =>
    have each : ∀ c ∈ call :: calls, Reads CallSite.record.reader c.json c :=
      fun c _ => CallSite.reads c
    have more : Fills FunctionNode.record ⟨some name, none⟩
        [("calls", .array ((call :: calls).map CallSite.json))] ⟨some name, some (call :: calls)⟩ :=
      .cons rfl rfl (Reads.list each).slot (.nil _)
    exact (fills.append more).reads rfl

namespace CallGraph

theorem reads (graph : CallGraph) : Reads record.reader graph.json graph := by
  have entries : Reads (Reader.list Reader.string) (.strings graph.entryPoints)
      graph.entryPoints :=
    .list fun name _ => reads_string name
  have functions : Reads (Reader.list FunctionNode.record.reader)
      (.array (graph.functions.map FunctionNode.json)) graph.functions :=
    .list fun f _ => FunctionNode.reads f
  have fills : Fills record {}
      [("schema_version", .string graph.schemaVersion),
        ("entry_points", .strings graph.entryPoints),
        ("functions", .array (graph.functions.map FunctionNode.json))]
      ⟨some graph.schemaVersion, some graph.entryPoints, some graph.functions⟩ :=
    .cons rfl rfl (reads_string graph.schemaVersion).slot
      (.cons rfl rfl entries.slot (.cons rfl rfl functions.slot (.nil _)))
  exact fills.reads rfl

/-- Whether a document is accepted depends on its schema alone. -/
theorem read_document (graph : CallGraph) :
    read (Utf8.encode graph.document) =
      if trim graph.schemaVersion = schema then .ok graph
      else .error (.foreignSchema graph.schemaVersion) := by
  have taken := graph.reads [] ended_nil
  rw [List.append_nil, ← encode_text] at taken
  have run : record.reader.run (Utf8.encode graph.document) = .ok graph := by
    rw [document, Reader.run]
    simp only [taken]
    rfl
  rw [read, run]

theorem schema_of_read {text : Bytes} {graph : CallGraph} (accepted : read text = .ok graph) :
    trim graph.schemaVersion = schema := by
  rw [read] at accepted
  split at accepted
  case h_1 => cases accepted
  case h_2 found _ =>
    split at accepted
    case isTrue held => exact Except.ok.inj accepted ▸ held
    case isFalse => cases accepted

/-- A graph comes back from its document, and what was read from any text can be written and read
again. -/
theorem document_round_trip (graph : CallGraph) :
    (trim graph.schemaVersion = schema → read (Utf8.encode graph.document) = .ok graph) ∧
      ∀ text, read text = .ok graph → read (Utf8.encode graph.document) = .ok graph := by
  have again : trim graph.schemaVersion = schema →
      read (Utf8.encode graph.document) = .ok graph := by
    intro held
    rw [read_document, if_pos held]
  exact ⟨again, fun text accepted => again (schema_of_read accepted)⟩

/-- Names that need escapes, a position at the end of its range, and everything that can be left
out. -/
def oddGraph : CallGraph where
  schemaVersion := "\t nbridge.callgraph@0.1.0\u00a0"
  entryPoints := ["", "a\"b\\c/\x01\x7fé\u2028𝄞"]
  functions := [
    ⟨"a\"b\\c/\x01\x7fé\u2028𝄞", [
      ⟨"", none, none⟩,
      ⟨"\x08\n\r", some ⟨"", 4294967295, 0⟩, some ⟨.virtualThreads, true⟩⟩]⟩,
    ⟨"", []⟩]

/-- A text that no document looks like: blanks, members in another order, a position as an array
without its last element, a guard that is null. -/
def looseText : Bytes :=
  ["\n\x7b \"functions\": [\x7b\"calls\": [", "\x7b\"guard\": null, ",
    "\"pos\": [\"\\u0061\\/\", 7], ", "\"target\": \"\\ud834\\udd1e\" \x7d], ",
    "\"name\": \"a\"\x7d], ", "\"entry_points\": [ ], ", "\"schema_version\": ",
    "\"nbridge.callgraph@0.1.0\"\x7d "].flatMap Utf8.encode

def looseGraph : CallGraph :=
  ⟨schema, [], [⟨"a", [⟨"𝄞", some ⟨"a/", 7, 0⟩, none⟩]⟩]⟩

theorem document_round_trip_odd :
    trim oddGraph.schemaVersion = schema ∧
      read (Utf8.encode oddGraph.document) = .ok oddGraph ∧
      read looseText = .ok looseGraph ∧
      read (Utf8.encode looseGraph.document) = .ok looseGraph := by
  have held : trim oddGraph.schemaVersion = schema := by decide +kernel
  have accepted : read looseText = .ok looseGraph := by
    have taken : (read looseText).toOption = some looseGraph := by decide +kernel
    cases outcome : read looseText with
    | error error =>
      rw [outcome] at taken
      cases taken
    | ok graph =>
      rw [outcome] at taken
      exact congrArg Except.ok (Option.some.inj taken)
  exact ⟨held, (document_round_trip oddGraph).1 held, accepted,
    (document_round_trip looseGraph).2 looseText accepted⟩

end CallGraph

end LinkGate
