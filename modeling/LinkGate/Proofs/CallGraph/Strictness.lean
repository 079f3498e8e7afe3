import LinkGate.Proofs.CallGraph.Documents
import LinkGate.Proofs.Json.RecordReaders
import LinkGate.Proofs.Json.Written

/-!
# Which texts are call graphs

A text is read as a call graph exactly when it is a JSON document of the right shape.  Everything
else is unreadable: what is no document at all, and what has a flaw at any depth.  Of what is left
only the schema may be foreign.

For each record there is its shape, and what a tree of this shape describes: optional values that
are not there stand for their defaults.
-/

set_option autoImplicit false

namespace LinkGate

open Json

namespace SourcePos

def shape : Shape :=
  .record [("file", true, .text), ("line", true, .count), ("col", false, .count)]

structure Describes (v : Tree) (pos : SourcePos) : Prop where
  file : Tree.Gives (v.parts shape.keys) "file" Tree.IsText pos.file
  line : Tree.Gives (v.parts shape.keys) "line" Tree.IsCount pos.line
  col : Tree.GivesOr (v.parts shape.keys) "col" Tree.IsCount 0 pos.col

def layout : List (Slot Slots) := [
  .of "file" true Reader.exact_string (·.file) (fun s x => { s with file := some x })
    fun _ _ => rfl,
  .of "line" true Reader.exact_uint32 (·.line) (fun s x => { s with line := some x })
    fun _ _ => rfl,
  .of "col" false Reader.exact_uint32 (·.col) (fun s x => { s with col := some x })
    fun _ _ => rfl]

theorem laid : Layout record layout where
  fields := rfl
  strict := rfl
  apart := Slot.pairwise_three ⟨by decide, fun _ _ => rfl, fun _ _ => rfl⟩
    ⟨by decide, fun _ _ => rfl, fun _ _ => rfl⟩ ⟨by decide, fun _ _ => rfl, fun _ _ => rfl⟩
  empty := by simp [layout, record, Slot.of]

theorem exact : record.reader.Exact shape Describes :=
  laid.exact_record fun _ _ filled complete => {
    file := filled.gives (.head _) (complete _ (.head _) rfl) ""
    line := filled.gives (.tail _ (.head _)) (complete _ (.tail _ (.head _)) rfl) (0 : UInt32)
    col := filled.givesOr (.tail _ (.tail _ (.head _))) (0 : UInt32) }

end SourcePos

namespace Capability

def shape : Shape :=
  .oneOf (all.map name)

def Describes (v : Tree) (c : Capability) : Prop :=
  v.Spells c.name

theorem exact : reader.Exact shape Describes := by
  have named : reader.Exact shape (Tree.IsOneOf (all.map fun c => (c.name, c))) :=
    Reader.exact_variant _
  refine named.imp ?_
  rintro v c ⟨name, found, spells⟩
  obtain ⟨other, -, same⟩ := List.mem_map.mp (mem_of_lookup found)
  cases same
  exact spells

end Capability

namespace LinkGuard

def shape : Shape :=
  .record [("capability", true, Capability.shape), ("enabled", true, .flag)]

structure Describes (v : Tree) (guard : LinkGuard) : Prop where
  capability : Tree.Gives (v.parts shape.keys) "capability" Capability.Describes guard.capability
  enabled : Tree.Gives (v.parts shape.keys) "enabled" Tree.IsFlag guard.enabled

def layout : List (Slot Slots) := [
  .of "capability" true Capability.exact (·.capability)
    (fun s x => { s with capability := some x }) fun _ _ => rfl,
  .of "enabled" true Reader.exact_boolean (·.enabled) (fun s x => { s with enabled := some x })
    fun _ _ => rfl]

theorem laid : Layout record layout where
  fields := rfl
  strict := rfl
  apart := Slot.pairwise_two ⟨by decide, fun _ _ => rfl, fun _ _ => rfl⟩
  empty := by simp [layout, record, Slot.of]

theorem exact : record.reader.Exact shape Describes :=
  laid.exact_record fun _ _ filled complete => {
    capability := filled.gives (.head _) (complete _ (.head _) rfl) .threads
    enabled := filled.gives (.tail _ (.head _)) (complete _ (.tail _ (.head _)) rfl) false }

end LinkGuard

namespace CallSite

def shape : Shape :=
  .record [("target", true, .text), ("pos", false, .optional SourcePos.shape),
    ("guard", false, .optional LinkGuard.shape)]

structure Describes (v : Tree) (call : CallSite) : Prop where
  target : Tree.Gives (v.parts shape.keys) "target" Tree.IsText call.target
  pos : Tree.GivesOr (v.parts shape.keys) "pos" (Tree.IsOptional SourcePos.Describes) none call.pos
  guard : Tree.GivesOr (v.parts shape.keys) "guard" (Tree.IsOptional LinkGuard.Describes) none
    call.guard

def layout : List (Slot Slots) := [
  .of "target" true Reader.exact_string (·.target) (fun s x => { s with target := some x })
    fun _ _ => rfl,
  .of "pos" false (Reader.exact_optional SourcePos.exact) (·.pos)
    (fun s x => { s with pos := some x }) fun _ _ => rfl,
  .of "guard" false (Reader.exact_optional LinkGuard.exact) (·.guard)
    (fun s x => { s with guard := some x }) fun _ _ => rfl]

theorem laid : Layout record layout where
  fields := rfl
  strict := rfl
  apart := Slot.pairwise_three ⟨by decide, fun _ _ => rfl, fun _ _ => rfl⟩
    ⟨by decide, fun _ _ => rfl, fun _ _ => rfl⟩ ⟨by decide, fun _ _ => rfl, fun _ _ => rfl⟩
  empty := by simp [layout, record, Slot.of]

theorem exact : record.reader.Exact shape Describes :=
  laid.exact_record fun _ _ filled complete => {
    target := filled.gives (.head _) (complete _ (.head _) rfl) ""
    pos := filled.givesOr (.tail _ (.head _)) none
    guard := filled.givesOr (.tail _ (.tail _ (.head _))) none }

end CallSite

namespace FunctionNode

def shape : Shape :=
  .record [("name", true, .text), ("calls", false, .list CallSite.shape)]

structure Describes (v : Tree) (f : FunctionNode) : Prop where
  name : Tree.Gives (v.parts shape.keys) "name" Tree.IsText f.name
  calls : Tree.GivesOr (v.parts shape.keys) "calls" (Tree.IsList CallSite.Describes) [] f.calls

def layout : List (Slot Slots) := [
  .of "name" true Reader.exact_string (·.name) (fun s x => { s with name := some x })
    fun _ _ => rfl,
  .of "calls" false (Reader.exact_list CallSite.exact) (·.calls)
    (fun s x => { s with calls := some x }) fun _ _ => rfl]

theorem laid : Layout record layout where
  fields := rfl
  strict := rfl
  apart := Slot.pairwise_two ⟨by decide, fun _ _ => rfl, fun _ _ => rfl⟩
  empty := by simp [layout, record, Slot.of]

theorem exact : record.reader.Exact shape Describes :=
  laid.exact_record fun _ _ filled complete => {
    name := filled.gives (.head _) (complete _ (.head _) rfl) ""
    calls := filled.givesOr (.tail _ (.head _)) [] }

end FunctionNode

namespace CallGraph

def shape : Shape :=
  .record [("schema_version", true, .text), ("entry_points", true, .list .text),
    ("functions", false, .list FunctionNode.shape)]

structure Describes (v : Tree) (graph : CallGraph) : Prop where
  schemaVersion : Tree.Gives (v.parts shape.keys) "schema_version" Tree.IsText graph.schemaVersion
  entryPoints : Tree.Gives (v.parts shape.keys) "entry_points" (Tree.IsList Tree.IsText)
    graph.entryPoints
  functions : Tree.GivesOr (v.parts shape.keys) "functions" (Tree.IsList FunctionNode.Describes) []
    graph.functions

def layout : List (Slot Slots) := [
  .of "schema_version" true Reader.exact_string (·.schemaVersion)
    (fun s x => { s with schemaVersion := some x }) fun _ _ => rfl,
  .of "entry_points" true (Reader.exact_list Reader.exact_string) (·.entryPoints)
    (fun s x => { s with entryPoints := some x }) fun _ _ => rfl,
  .of "functions" false (Reader.exact_list FunctionNode.exact) (·.functions)
    (fun s x => { s with functions := some x }) fun _ _ => rfl]

theorem laid : Layout record layout where
  fields := rfl
  strict := rfl
  apart := Slot.pairwise_three ⟨by decide, fun _ _ => rfl, fun _ _ => rfl⟩
    ⟨by decide, fun _ _ => rfl, fun _ _ => rfl⟩ ⟨by decide, fun _ _ => rfl, fun _ _ => rfl⟩
  empty := by simp [layout, record, Slot.of]

theorem exact : record.reader.Exact shape Describes :=
  laid.exact_record fun _ _ filled complete => {
    schemaVersion := filled.gives (.head _) (complete _ (.head _) rfl) ""
    entryPoints := filled.gives (.tail _ (.head _)) (complete _ (.tail _ (.head _)) rfl) []
    functions := filled.givesOr (.tail _ (.tail _ (.head _))) [] }

/-! ## Whole texts -/

theorem read_of_run {text : Bytes} {graph : CallGraph}
    (taken : record.reader.run text = .ok graph) :
    read text = if trim graph.schemaVersion = schema then .ok graph
      else .error (.foreignSchema graph.schemaVersion) := by
  rw [read, taken]

/-- What is not read as a record is unreadable. -/
theorem unreadable_of_run {text : Bytes} (refused : ∀ graph, record.reader.run text ≠ .ok graph) :
    ∃ e, read text = .error (.unreadable e) := by
  cases outcome : record.reader.run text with
  | ok graph => exact absurd outcome (refused graph)
  | error e =>
    refine ⟨e, ?_⟩
    rw [read, outcome]

/-- A text is unreadable unless it is a document without a flaw.  Then it is read as what it
describes, and only its schema can be refused. -/
theorem read_exactly (text : Bytes) :
    ((∀ v, ¬Document text v) → ∃ e, read text = .error (.unreadable e)) ∧
      ∀ v, Document text v →
        (Flawed shape v → ∃ e, read text = .error (.unreadable e)) ∧
        (¬Flawed shape v → ∃ graph, Describes v graph ∧ read text =
          if trim graph.schemaVersion = schema then .ok graph
          else .error (.foreignSchema graph.schemaVersion)) := by
  refine ⟨?_, ?_⟩
  · intro none
    refine unreadable_of_run fun graph taken => ?_
    obtain ⟨v, document, -, -⟩ := exact.document_of_run taken
    exact none v document
  intro v document
  refine ⟨?_, ?_⟩
  · intro flawed
    refine unreadable_of_run fun graph taken => ?_
    obtain ⟨w, same, sound, -⟩ := exact.document_of_run taken
    exact sound (same.unique document ▸ flawed)
  · intro sound
    obtain ⟨graph, taken⟩ := exact.run_of_document document sound
    obtain ⟨w, same, -, described⟩ := exact.document_of_run taken
    exact ⟨graph, same.unique document ▸ described, read_of_run taken⟩

/-- A guarded call with its position, and one without either. -/
def guardedGraph : CallGraph where
  schemaVersion := schema
  entryPoints := ["main"]
  functions := [
    ⟨"main", [⟨"spawn", some ⟨"a.rs", 3, 14⟩, some ⟨.threads, true⟩⟩, ⟨"helper", none, none⟩]⟩,
    ⟨"helper", []⟩]

/-- A graph as it is written, but for one position, whose optional `col` is misspelt. -/
def misspeltColumn : Json :=
  .object [("schema_version", .string schema), ("entry_points", .strings ["main"]),
    ("functions", .array [.object [("name", .string "main"), ("calls", .array [.object
      [("target", .string "spawn"), ("pos", .object [("file", .string "a.rs"),
        ("line", .integer 3), ("column", .integer 14)])]])]])]

theorem flawed_misspeltColumn : Flawed shape misspeltColumn.tree := by
  have position : Flawed SourcePos.shape (.object [("file", .string "a.rs"),
      ("line", .number (numberText 3)), ("column", .number (numberText 14))]) :=
    @Flawed.undeclared _ _ "column" (by simp [Tree.parts]) (by decide)
  have call {members : List (String × Tree)} (flawed : Flawed SourcePos.shape (.object members)) :
      Flawed CallSite.shape (.object [("target", .string "spawn"), ("pos", .object members)]) :=
    .part (.tail _ (.head _)) (.tail _ (.head _)) (.optional (by simp) flawed)
  have function {site : Tree} (flawed : Flawed CallSite.shape site) :
      Flawed FunctionNode.shape (.object [("name", .string "main"), ("calls", .array [site])]) :=
    .part (.tail _ (.head _)) (.tail _ (.head _)) (.element (.head _) flawed)
  exact .part (.tail _ (.tail _ (.head _))) (.tail _ (.tail _ (.head _)))
    (.element (.head _) (function (call position)))

/-- Nothing at all, a key that no position has, deep in what is else a graph, and the text of a
graph. -/
theorem read_exactly_strange :
    (∃ e, read [] = .error (.unreadable e)) ∧
      (Document (Utf8.encode misspeltColumn.text) misspeltColumn.tree ∧
        ∃ e, read (Utf8.encode misspeltColumn.text) = .error (.unreadable e)) ∧
      ∃ v, Document (Utf8.encode (document guardedGraph)) v ∧ ¬Flawed shape v ∧
        Describes v guardedGraph := by
  have nothing : ∀ v, ¬Document [] v := by
    rintro v ⟨start, rest, spaces, stands, -⟩
    have empty := stands.skipSpace_eq spaces
    obtain ⟨b, more, rfl, -⟩ := stands.opens
    cases empty
  have written : Document (Utf8.encode misspeltColumn.text) misspeltColumn.tree :=
    document_text (by simp [misspeltColumn, Json.strings, Integral, IntegralMembers,
      IntegralElements])
  refine ⟨(read_exactly []).1 nothing,
    ⟨written, ((read_exactly _).2 _ written).1 flawed_misspeltColumn⟩, ?_⟩
  have accepted := read_document guardedGraph
  have held : trim guardedGraph.schemaVersion = schema := by decide +kernel
  rw [if_pos held] at accepted
  obtain ⟨unfit, fit⟩ := read_exactly (Utf8.encode (document guardedGraph))
  rw [accepted] at unfit fit
  obtain ⟨v, document⟩ : ∃ v, Document (Utf8.encode (document guardedGraph)) v := by
    by_contra none
    obtain ⟨e, impossible⟩ := unfit (not_exists.mp none)
    cases impossible
  have sound : ¬Flawed shape v := by
    intro flawed
    obtain ⟨e, impossible⟩ := (fit v document).1 flawed
    cases impossible
  obtain ⟨graph, described, same⟩ := (fit v document).2 sound
  split at same
  case isTrue =>
    cases same
    exact ⟨v, document, sound, described⟩
  case isFalse => cases same

end CallGraph

end LinkGate
