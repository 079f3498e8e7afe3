import LinkGate.CallGraph.Document

/-!
# Reports

A report lists diagnostics and a few facts about the run that made it.  Diagnostics are sorted by
the text of their location, then by code, then by message, all compared character by character;
those that agree in all three keep the order they were given in.  Each fact has a key, and a later
value replaces an earlier one.
-/

set_option autoImplicit false

namespace LinkGate

inductive Severity where
  | error
  deriving DecidableEq, Repr

def Severity.name : Severity → String
  | error => "error"

/-- The stage of the build that a diagnostic comes from. -/
inductive Stage where
  | parse
  | link
  deriving DecidableEq, Repr

def Stage.name : Stage → String
  | parse => "parse"
  | link => "link"

inductive Location where
  | callSite (function : String) (pos : Option SourcePos)
  | file (path : String)
  deriving DecidableEq, Repr

namespace Location

/-- The text that locations are sorted by. -/
def sortKey : Location → String
  | callSite function none => function
  | callSite function (some pos) => s!"{function}@{pos.text}"
  | file path => path

def json : Location → Json
  | callSite function pos =>
    .object ([("kind", .string "call_site"), ("function", .string function)] ++
      pos.toList.map fun pos => ("pos", pos.json))
  | file path => .object [("kind", .string "file"), ("path", .string path)]

end Location

structure Diagnostic where
  code : String
  severity : Severity := .error
  stage : Stage
  message : String
  location : Option Location := none
  notes : List String := []
  data : Json.Members := []

namespace Diagnostic

/-- A diagnostic without a location sorts like one with an empty text. -/
def sortKey (d : Diagnostic) : String :=
  match d.location with
  | none => ""
  | some location => location.sortKey

def compare (a b : Diagnostic) : Ordering :=
  (Ord.compare a.sortKey b.sortKey).then
    ((Ord.compare a.code b.code).then (Ord.compare a.message b.message))

def le (a b : Diagnostic) : Bool :=
  (compare a b).isLE

/-- What is absent or empty is left out. -/
def json (d : Diagnostic) : Json :=
  .object ([("code", .string d.code), ("severity", .string d.severity.name),
      ("stage", .string d.stage.name), ("message", .string d.message)] ++
    (d.location.toList.map fun location => ("loc", location.json)) ++
    (if d.notes.isEmpty then [] else [("notes", .strings d.notes)]) ++
    (if d.data.isEmpty then [] else [("data", .object d.data)]))

end Diagnostic

structure Report where
  schemaVersion : String
  ok : Bool
  diagnostics : List Diagnostic
  facts : Json.Members

namespace Report

def schema : String :=
  "nbridge.diag@0.1.0"

/-- The report of a run that has nothing to say. -/
def clean : Report where
  schemaVersion := schema
  ok := true
  diagnostics := []
  facts := []

/-- Replaces the diagnostics.  A run is fine if none of them is an error. -/
def withDiagnostics (report : Report) (diagnostics : List Diagnostic) : Report :=
  let sorted := diagnostics.mergeSort Diagnostic.le
  { report with
    ok := sorted.all fun d => d.severity ≠ .error
    diagnostics := sorted }

def withFact (report : Report) (key : String) (value : Json) : Report :=
  { report with facts := Json.put key value report.facts }

def members (report : Report) : List (String × Json) :=
  [("schema_version", .string report.schemaVersion), ("ok", .bool report.ok),
      ("diagnostics", .array (report.diagnostics.map Diagnostic.json))] ++
    (if report.facts.isEmpty then [] else [("meta", .object report.facts)])

def json (report : Report) : Json :=
  .object report.members

def text (report : Report) : String :=
  report.json.text

end Report

end LinkGate
