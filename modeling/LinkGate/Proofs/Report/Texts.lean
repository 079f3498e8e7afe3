import LinkGate.Proofs.Json.Written
import LinkGate.Proofs.Lookup
import LinkGate.Report.Basic
import Mathlib.Data.List.Basic

/-!
# Reports from their texts

The text of a report leaves out what is empty and writes both kinds of location as one object.
Still it tells the whole report: each part is found under a key of its own, and is empty or absent
where there is no such key.
-/

set_option autoImplicit false

namespace LinkGate

/-! ## Members -/

namespace Json

/-- The value under a key of an object. -/
def member? (key : String) : Json → Option Json
  | object members => members.lookup key
  | _ => none

def unlessEmpty {α : Type} (write : List α → Json) (items : List α) : Option Json :=
  if items.isEmpty then none else some (write items)

section
variable {α : Type} (name key : String)

theorem lookup_present (x : Option α) (write : α → Json) :
    (x.toList.map fun v => (key, write v)).lookup name =
      if name = key then x.map write else none := by
  cases x <;> simp [lookup_cons_eq]

theorem lookup_unless (items : List α) (write : List α → Json) :
    List.lookup name (if items.isEmpty then [] else [(key, write items)]) =
      if name = key then unlessEmpty write items else none := by
  cases items <;> simp [lookup_cons_eq, unlessEmpty]

end

theorem eq_of_unlessEmpty {α : Type} {write : List α → Json} {a b : List α}
    (same : unlessEmpty write a = unlessEmpty write b) (each : write a = write b → a = b) :
    a = b := by
  cases a <;> cases b <;> simp_all [unlessEmpty]

theorem eq_of_strings {a b : List String} (same : strings a = strings b) : a = b := by
  rw [strings, strings, array.injEq] at same
  exact List.map_injective_iff.mpr (fun _ _ => string.inj) same

end Json

/-! ## Parts of a report -/

theorem Stage.eq_of_name {a b : Stage} (same : a.name = b.name) : a = b := by
  cases a <;> cases b <;> simp_all [name]

theorem SourcePos.eq_of_json {p q : SourcePos} (same : p.json = q.json) : p = q := by
  simp only [json, Json.object.injEq, List.cons.injEq, Prod.mk.injEq, Json.string.injEq,
    Json.integer.injEq, Int.ofNat_inj, UInt32.toNat_inj, true_and, and_true] at same
  cases p
  cases q
  simp_all

namespace Location

theorem member?_json (location : Location) (key : String) :
    location.json.member? key =
      match location with
      | callSite function pos =>
        if key = "kind" then some (.string "call_site")
        else if key = "function" then some (.string function)
        else if key = "pos" then pos.map SourcePos.json else none
      | file path =>
        if key = "kind" then some (.string "file")
        else if key = "path" then some (.string path) else none := by
  cases location <;>
    simp only [json, Json.member?, List.cons_append, List.nil_append, lookup_cons_eq,
      Json.lookup_present, List.lookup_nil]

theorem eq_of_json {a b : Location} (same : a.json = b.json) : a = b := by
  have under (key : String) : a.json.member? key = b.json.member? key := by rw [same]
  simp only [member?_json] at under
  have kind := under "kind"
  cases a with
  | callSite function pos =>
    cases b with
    | callSite other there =>
      obtain rfl : function = other := by simpa using under "function"
      have places : pos.map SourcePos.json = there.map SourcePos.json := by simpa using under "pos"
      rw [Option.map_injective (fun _ _ => SourcePos.eq_of_json) places]
    | file path => simp at kind
  | file path =>
    cases b with
    | callSite function pos => simp at kind
    | file other =>
      obtain rfl : path = other := by simpa using under "path"
      rfl

end Location

namespace Diagnostic

theorem member?_json (d : Diagnostic) (key : String) :
    d.json.member? key =
      if key = "code" then some (.string d.code)
      else if key = "severity" then some (.string d.severity.name)
      else if key = "stage" then some (.string d.stage.name)
      else if key = "message" then some (.string d.message)
      else if key = "loc" then d.location.map Location.json
      else if key = "notes" then Json.unlessEmpty Json.strings d.notes
      else if key = "data" then Json.unlessEmpty Json.object d.data else none := by
  simp only [json, Json.member?, List.lookup_append, lookup_cons_eq, Json.lookup_present,
    Json.lookup_unless, List.lookup_nil]
  grind

theorem eq_of_json {a b : Diagnostic} (same : a.json = b.json) : a = b := by
  have under (key : String) : a.json.member? key = b.json.member? key := by rw [same]
  simp only [member?_json] at under
  have code : a.code = b.code := by simpa using under "code"
  have name : a.stage.name = b.stage.name := by simpa using under "stage"
  have message : a.message = b.message := by simpa using under "message"
  have location : a.location.map Location.json = b.location.map Location.json := by
    simpa using under "loc"
  have notes : Json.unlessEmpty Json.strings a.notes = Json.unlessEmpty Json.strings b.notes := by
    simpa using under "notes"
  have data : Json.unlessEmpty Json.object a.data = Json.unlessEmpty Json.object b.data := by
    simpa using under "data"
  have severity : a.severity = b.severity := rfl
  have stage := Stage.eq_of_name name
  have locations := Option.map_injective (fun _ _ => Location.eq_of_json) location
  have noteLists := Json.eq_of_unlessEmpty notes Json.eq_of_strings
  have members := Json.eq_of_unlessEmpty data Json.object.inj
  cases a
  cases b
  simp_all

end Diagnostic

namespace Report

theorem member?_json (report : Report) (key : String) :
    report.json.member? key =
      if key = "schema_version" then some (.string report.schemaVersion)
      else if key = "ok" then some (.bool report.ok)
      else if key = "diagnostics" then some (.array (report.diagnostics.map Diagnostic.json))
      else if key = "meta" then Json.unlessEmpty Json.object report.facts else none := by
  simp only [json, members, Json.member?, List.lookup_append, lookup_cons_eq, Json.lookup_unless,
    List.lookup_nil]
  grind

theorem eq_of_json {a b : Report} (same : a.json = b.json) : a = b := by
  have under (key : String) : a.json.member? key = b.json.member? key := by rw [same]
  simp only [member?_json] at under
  have schemaVersion : a.schemaVersion = b.schemaVersion := by simpa using under "schema_version"
  have ok : a.ok = b.ok := by simpa using under "ok"
  have diagnostics : a.diagnostics.map Diagnostic.json = b.diagnostics.map Diagnostic.json := by
    simpa using under "diagnostics"
  have facts : Json.unlessEmpty Json.object a.facts = Json.unlessEmpty Json.object b.facts := by
    simpa using under "meta"
  have shown := List.map_injective_iff.mpr (fun _ _ => Diagnostic.eq_of_json) diagnostics
  have members := Json.eq_of_unlessEmpty facts Json.object.inj
  cases a
  cases b
  simp_all

end Report

/-! ## Reports with integers only -/

theorem Json.integral_strings (items : List String) : (strings items).Integral :=
  integral_array_iff.mpr (List.forall_mem_map.mpr fun _ _ => trivial)

theorem Location.integral_json (location : Location) : location.json.Integral := by
  cases location with
  | callSite function pos =>
    cases pos <;> simp [json, SourcePos.json, Json.Integral, Json.IntegralMembers]
  | file path => simp [json, Json.Integral, Json.IntegralMembers]

theorem Diagnostic.integral_json {d : Diagnostic}
    (data : ∀ member ∈ d.data, member.2.Integral) : d.json.Integral := by
  rw [json, Json.integral_object_iff]
  simp only [List.forall_mem_append]
  refine ⟨⟨⟨?_, ?_⟩, ?_⟩, ?_⟩
  · simp [Json.Integral]
  · cases d.location <;> simp [Location.integral_json]
  · split
    · exact List.forall_mem_nil _
    · exact List.forall_mem_singleton.mpr (Json.integral_strings d.notes)
  · split
    · exact List.forall_mem_nil _
    · exact List.forall_mem_singleton.mpr (Json.integral_object_iff.mpr data)

namespace Report

/-- All numbers in the data and the facts are integers. -/
structure Integral (report : Report) : Prop where
  data : ∀ d ∈ report.diagnostics, ∀ member ∈ d.data, member.2.Integral
  facts : ∀ member ∈ report.facts, member.2.Integral

theorem Integral.json {report : Report} (integral : report.Integral) : report.json.Integral := by
  rw [Report.json, members, Json.integral_object_iff, List.forall_mem_append]
  constructor
  · have shown : (Json.array (report.diagnostics.map Diagnostic.json)).Integral :=
      Json.integral_array_iff.mpr (List.forall_mem_map.mpr fun d mem =>
        Diagnostic.integral_json (integral.data d mem))
    simpa [Json.Integral] using shown
  · split
    · exact List.forall_mem_nil _
    · exact List.forall_mem_singleton.mpr (Json.integral_object_iff.mpr integral.facts)

/-- The text tells the report. -/
theorem text_eq_iff {a b : Report} (first : a.Integral) (second : b.Integral) :
    a.text = b.text ↔ a = b :=
  ⟨fun same => eq_of_json (Json.eq_of_text first.json second.json same), congrArg text⟩

/-- A report of one diagnostic, with what is nested in its data. -/
def nested (location : Location) : Report :=
  clean.withDiagnostics
    [{ code := "E"
       stage := .link
       message := "m"
       location := some location
       data := [("a", .array [.null, .object [("b", .integer (-1))], .string "\""])] }]

theorem text_eq_iff_nested :
    (nested (.file "f")).Integral ∧ (nested (.callSite "f" none)).Integral ∧
      (nested (.file "f")).text ≠ (nested (.callSite "f" none)).text := by
  have integral (location : Location) : (nested location).Integral := by
    refine ⟨fun d mem member held => ?_, nofun⟩
    simp only [nested, withDiagnostics, List.mergeSort_singleton, List.mem_singleton] at mem
    subst mem
    obtain rfl := List.mem_singleton.mp held
    simp [Json.Integral, Json.IntegralElements, Json.IntegralMembers]
  have differ : nested (.file "f") ≠ nested (.callSite "f" none) := by
    intro same
    have shown := congrArg (fun report => report.diagnostics.map Diagnostic.location) same
    simp [nested, withDiagnostics] at shown
  exact ⟨integral _, integral _, mt (text_eq_iff (integral _) (integral _)).mp differ⟩

end Report

end LinkGate
