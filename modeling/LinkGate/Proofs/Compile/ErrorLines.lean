import LinkGate.Compile.Basic
import LinkGate.Proofs.Json.OpenRecords
import LinkGate.Proofs.Json.Written
import Mathlib.Data.List.Permutation

/-!
# Error lines

A line is an error when it is an object with one position and one message, whatever else the object
holds, or the array of the two.  Neither key may be there twice, the position fits 32 bits, and
nothing but blanks surrounds the value.
-/

set_option autoImplicit false

namespace LinkGate.CompilerError

open Json

/-- A text that is an error. -/
inductive ErrorLine (text : Bytes) (error : CompilerError) : Prop where
  | object {inner rest : Bytes} {members : List (String × Tree)} {position message : Tree}
    (before : Spaces text (openBrace :: inner))
    (entries : OpenEntries ["position", "message"] true inner members rest)
    (both : members.Perm [("position", position), ("message", message)])
    (placed : position.IsInt32 error.position) (told : message.IsText error.message)
    (after : Spaces rest [])
  | array {position message : Tree} (document : Document text (.array [position, message]))
    (placed : position.IsInt32 error.position) (told : message.IsText error.message)

variable {text : Bytes} {error : CompilerError} {members : List (String × Tree)}

theorem ErrorLine.of_object {position message : Tree} (document : Document text (.object members))
    (both : members.Perm [("position", position), ("message", message)])
    (placed : position.IsInt32 error.position) (told : message.IsText error.message) :
    ErrorLine text error := by
  obtain ⟨start, rest, before, stands, after⟩ := document
  cases stands with
  | object entries =>
    refine .object before (.of_entries entries fun member mem => ?_) both placed told after
    rcases List.mem_pair.mp (both.mem_iff.mp mem) with rfl | rfl
    · exact List.mem_cons_self
    · exact List.mem_cons_of_mem _ List.mem_cons_self

/-! ## Fields -/

/-- What the fields make of values. -/
def Makes (key : String) (v : Tree) (slots next : Slots) : Prop :=
  (key = "position" ∧ ∃ n, v.IsInt32 n ∧ next = { slots with position := some n }) ∨
    (key = "message" ∧ ∃ s, v.IsText s ∧ next = { slots with message := some s })

theorem lenient_record : Lenient record Makes where
  lenient := rfl
  takes := by
    have position : "position" ≠ "message" := by decide
    refine List.forall_mem_cons.mpr ⟨fun slots => Reader.takes_int32.slot fun v next => ?_,
      List.forall_mem_singleton.mpr fun slots => Reader.takes_string.slot fun v next => ?_⟩
    · simp only [Makes, FieldReader.slot, position, true_and, false_and, or_false]
    · simp only [Makes, FieldReader.slot, position.symm, true_and, false_and, false_or]

variable {last : Slots}

/-- A field is filled once. -/
theorem Makes.fresh {key : String} {v : Tree} {slots next : Slots} {field : FieldReader Slots}
    (made : Makes key v slots next) (found : record.fields.find? (·.name == key) = some field)
    (unset : field.isSet slots = false) :
    (key = "position" ∧ slots.position = none ∧
      ∃ n, v.IsInt32 n ∧ next = { slots with position := some n }) ∨
    (key = "message" ∧ slots.message = none ∧
      ∃ s, v.IsText s ∧ next = { slots with message := some s }) := by
  rcases made with ⟨rfl, made⟩ | ⟨rfl, made⟩
  · obtain rfl := Option.some.inj found
    exact .inl ⟨rfl, FieldReader.unset_slot_iff.mp unset, made⟩
  · obtain rfl := Option.some.inj found
    exact .inr ⟨rfl, FieldReader.unset_slot_iff.mp unset, made⟩

/-! ## Lines -/

/-- There is no third member, since both fields are filled by two. -/
theorem both_of_gathered (gathered : Gathered record Makes {} members last)
    (complete : record.missing? last = none) :
    ∃ v w, members.Perm [("position", v), ("message", w)] ∧
      v.IsInt32 (record.build last).position ∧ w.IsText (record.build last).message := by
  -- whatever comes third finds its own slot filled
  have full {n : Int} {s : String} {others : List (String × Tree)}
      (further : Gathered record Makes ⟨some n, some s⟩ others last) :
      others = [] ∧ last = ⟨some n, some s⟩ := by
    cases further with
    | nil => exact ⟨rfl, rfl⟩
    | cons found unset made =>
      rcases made.fresh found unset with ⟨-, unset, -⟩ | ⟨-, unset, -⟩
      · cases unset
      · cases unset
  cases gathered with
  | nil => exact absurd complete (Option.some_ne_none "position")
  | cons found unset made others =>
    rcases made.fresh found unset with ⟨rfl, -, n, placed, rfl⟩ | ⟨rfl, -, s, told, rfl⟩
    case inl =>
      cases others with
      | nil => exact absurd complete (Option.some_ne_none "message")
      | cons found unset made further =>
        rcases made.fresh found unset with ⟨-, unset, -⟩ | ⟨rfl, -, s, told, rfl⟩
        · cases unset
        · obtain ⟨rfl, rfl⟩ := full further
          exact ⟨_, _, .refl _, placed, told⟩
    case inr =>
      cases others with
      | nil => exact absurd complete (Option.some_ne_none "position")
      | cons found unset made further =>
        rcases made.fresh found unset with ⟨rfl, -, n, placed, rfl⟩ | ⟨-, unset, -⟩
        · obtain ⟨rfl, rfl⟩ := full further
          exact ⟨_, _, .swap _ _ _, placed, told⟩
        · cases unset

/-- The slots that an error comes from. -/
def filledBy (error : CompilerError) : Slots :=
  ⟨some error.position, some error.message⟩

theorem gathered_of_both {v w : Tree} (both : members.Perm [("position", v), ("message", w)])
    (placed : v.IsInt32 error.position) (told : w.IsText error.message) :
    Gathered record Makes {} members (filledBy error) := by
  rcases List.perm_pair.mp both with rfl | rfl
  · exact .cons rfl rfl (.inl ⟨rfl, _, placed, rfl⟩)
      (.cons rfl rfl (.inr ⟨rfl, _, told, rfl⟩) (.nil _))
  · exact .cons rfl rfl (.inr ⟨rfl, _, told, rfl⟩)
      (.cons rfl rfl (.inl ⟨rfl, _, placed, rfl⟩) (.nil _))

theorem pair_of_gathered {values : List Tree}
    (gathered : GatheredInOrder Makes record.fields {} values last) :
    ∃ v w, values = [v, w] ∧
      v.IsInt32 (record.build last).position ∧ w.IsText (record.build last).message := by
  cases gathered with
  | nil _ optional => cases optional _ List.mem_cons_self
  | cons made others =>
    rcases made with ⟨-, n, placed, rfl⟩ | ⟨other, -⟩
    case inr => exact absurd other (by decide)
    case inl =>
      cases others with
      | nil _ optional => cases optional _ List.mem_cons_self
      | cons made further =>
        rcases made with ⟨other, -⟩ | ⟨-, s, told, rfl⟩
        · exact absurd other (by decide)
        · cases further with
          | nil => exact ⟨_, _, rfl, placed, told⟩

/-- Which lines are read. -/
theorem ofLine?_eq_some_iff {line : String} :
    ofLine? line = some error ↔ ErrorLine (Utf8.encode (trim line)) error := by
  have read : ofLine? line = some error ↔
      record.reader.run (Utf8.encode (trim line)) = .ok error := by
    rw [ofLine?]
    cases record.reader.run (Utf8.encode (trim line)) with
    | error => exact ⟨nofun, nofun⟩
    | ok other => rw [Except.toOption, Option.some.injEq, Except.ok.injEq]
  rw [read, Reader.run_eq_ok_iff]
  constructor
  · rintro ⟨rest, taken, after⟩
    cases lenient_record.reader_eq_ok_iff.mp taken with
    | object before entries gathered complete =>
      obtain ⟨v, w, both, placed, told⟩ := both_of_gathered gathered complete
      exact .object before entries both placed told after
    | array before elements gathered =>
      obtain ⟨v, w, rfl, placed, told⟩ := pair_of_gathered gathered
      exact .array ⟨_, rest, before, .array elements, after⟩ placed told
  · intro isError
    cases isError with
    | @object _ rest _ _ _ before entries both placed told after =>
      have standing : OpenRecord record Makes (Utf8.encode (trim line))
          (record.build (filledBy error)) rest :=
        .object before entries (gathered_of_both both placed told) rfl
      exact ⟨rest, lenient_record.reader_eq_ok_iff.mpr standing, after⟩
    | array document placed told =>
      obtain ⟨start, rest, before, stands, after⟩ := document
      cases stands with
      | array elements =>
        have gathered : GatheredInOrder Makes record.fields {} _ (filledBy error) :=
          .cons (.inl ⟨rfl, _, placed, rfl⟩) (.cons (.inr ⟨rfl, _, told, rfl⟩) (.nil _ nofun))
        have standing : OpenRecord record Makes (Utf8.encode (trim line))
            (record.build (filledBy error)) rest :=
          .array before elements gathered
        exact ⟨rest, lenient_record.reader_eq_ok_iff.mpr standing, after⟩

end LinkGate.CompilerError
