import LinkGate.Json.Record
import LinkGate.Proofs.Json.Readers
import Mathlib.Data.List.Nodup
import Mathlib.Data.List.Pairwise

/-!
# Which records are read

A record is read exactly when its fields are, if each field has a slot of its own (`Layout`).  While
the values are read the slots hold what was found under their names so far (`Filled`); this goes for
the members of an object and for the elements of an array alike.
-/

set_option autoImplicit false

namespace LinkGate.Json

/-! ## Members -/

section
variable {first : Bool} {text rest : Bytes}

theorem closing_of_nextMember (next : nextMember first text = .ok (false, rest)) :
    ∃ behind, rest = closeBrace :: behind ∧ Spaces text rest := by
  simp only [nextMember] at next
  split at next
  case h_1 => cases next
  case h_2 b more front =>
    split at next
    case isTrue isClosing =>
      cases next
      exact ⟨more, isClosing ▸ rfl, spaces_of_skipSpace front⟩
    case isFalse =>
      repeat' split at next
      all_goals cases next

theorem nextMember_eq_ok_iff :
    nextMember first text = .ok (true, rest) ↔ Gap first text (quote :: rest) := by
  constructor
  · intro next
    simp only [nextMember] at next
    split at next
    case h_1 => cases next
    case h_2 b more front =>
      have before := spaces_of_skipSpace front
      split at next
      case isTrue => cases next
      case isFalse =>
        cases first with
        | true =>
          simp only [if_true] at next
          split at next
          case isFalse => cases next
          case isTrue isQuote =>
            cases next
            subst isQuote
            exact .first before
        | false =>
          simp only [Bool.false_eq_true, if_false] at next
          split at next
          case isFalse => cases next
          case isTrue isComma =>
            split at next
            case h_1 => cases next
            case h_2 c after gap =>
              split at next
              case isFalse =>
                split at next
                all_goals cases next
              case isTrue isQuote =>
                cases next
                subst isComma isQuote
                exact .later before (spaces_of_skipSpace gap)
  · intro gap
    cases gap with
    | first spaces =>
      simp only [nextMember, spaces.skipSpace_cons (b := quote) rfl]
      rfl
    | later before spaces =>
      simp only [nextMember, before.skipSpace_cons (b := comma) rfl,
        spaces.skipSpace_cons (b := quote) rfl]
      rfl

theorem Entries.of_gap {behind last : Bytes} {member : String × Tree}
    {members : List (String × Tree)} (gap : Gap first text (quote :: rest))
    (entry : Entry rest member behind) (others : Entries .false behind members last) :
    Entries first text (member :: members) last := by
  cases gap with
  | first spaces => exact .first spaces entry others
  | later before spaces => exact .later before spaces entry others

theorem nextMember_closing (spaces : Spaces text (closeBrace :: rest)) :
    nextMember first text = .ok (false, closeBrace :: rest) := by
  simp only [nextMember, spaces.skipSpace_cons (b := closeBrace) rfl]
  rfl

theorem Entries.closing (entries : Entries first text [] rest) :
    Spaces text (closeBrace :: rest) := by
  cases entries with
  | close spaces => exact spaces

theorem Entries.exists_gap {member : String × Tree} {members : List (String × Tree)}
    (entries : Entries first text (member :: members) rest) :
    ∃ key behind, Gap first text (quote :: key) ∧ Entry key member behind ∧
      Entries .false behind members rest := by
  cases entries with
  | @first _ key behind _ _ _ spaces entry others =>
    exact ⟨key, behind, .first spaces, entry, others⟩
  | @later _ _ key behind _ _ _ before spaces entry others =>
    exact ⟨key, behind, .later before spaces, entry, others⟩

theorem closeObject_eq_ok_iff :
    closeObject text = .ok rest ↔ Spaces text (closeBrace :: rest) := by
  constructor
  · intro taken
    rw [closeObject] at taken
    split at taken
    case h_1 => cases taken
    case h_2 b more front =>
      split at taken
      case isTrue isClosing =>
        cases taken
        exact isClosing ▸ spaces_of_skipSpace front
      case isFalse =>
        split at taken
        all_goals cases taken
  · intro spaces
    rw [closeObject, spaces.skipSpace_cons rfl]
    rfl

end

theorem FieldReader.read_slot_eq_ok_iff {σ β : Type} {name : String} {required : Bool}
    {value : Reader β} {get : σ → Option β} {set : σ → β → σ} {slots next : σ} {text rest : Bytes} :
    (slot name required value get set).read slots text = .ok (next, rest) ↔
      ∃ x, value text = .ok (x, rest) ∧ next = set slots x := by
  rw [slot, map_eq_ok_iff]
  constructor
  · rintro ⟨⟨x, behind⟩, read, built⟩
    cases built
    exact ⟨x, read, rfl⟩
  · rintro ⟨x, read, rfl⟩
    exact ⟨(x, rest), read, rfl⟩

theorem FieldReader.unset_slot_iff {σ β : Type} {name : String} {required : Bool}
    {value : Reader β} {get : σ → Option β} {set : σ → β → σ} {slots : σ} :
    (slot name required value get set).isSet slots = false ↔ get slots = none := by
  rw [slot, Option.isSome_eq_false_iff, Option.isNone_iff_eq_none]

namespace Record
variable {σ α : Type} {record : Record σ α} {key : String} {slots next : σ} {rest behind : Bytes}

theorem named_of_find? {field : FieldReader σ}
    (found : record.fields.find? (·.name == key) = some field) :
    field ∈ record.fields ∧ field.name = key := by
  have named := List.find?_some found
  exact ⟨List.mem_of_find?_eq_some found, beq_iff_eq.mp named⟩

theorem find?_eq_none_iff : record.fields.find? (·.name == key) = none ↔ key ∉ record.keys := by
  simp only [List.find?_eq_none, beq_iff_eq, keys, List.mem_map, not_exists, not_and]

/-- A field is read once only. -/
theorem member_known_eq_ok_iff {field : FieldReader σ}
    (found : record.fields.find? (·.name == key) = some field) :
    record.member key slots rest = .ok (next, behind) ↔
      field.isSet slots = false ∧
        ∃ start, Spaces rest (colon :: start) ∧ field.read slots start = .ok (next, behind) := by
  constructor
  · intro taken
    simp only [member, found] at taken
    split at taken
    case isTrue => cases taken
    case isFalse unset =>
      split at taken
      case h_1 => cases taken
      case h_2 start separated =>
        split at taken
        case h_1 => cases taken
        case h_2 result read =>
          cases taken
          exact ⟨Bool.eq_false_iff.mpr unset, start, colonAfter_eq_ok_iff.mp separated, read⟩
  · rintro ⟨unset, start, spaces, read⟩
    simp only [member, found, unset, Bool.false_eq_true, if_false,
      colonAfter_eq_ok_iff.mpr spaces, read]

/-- The value of a key that is no field is passed over. -/
theorem member_unknown_eq_ok_iff (lenient : record.strict = false)
    (none : record.fields.find? (·.name == key) = none) :
    record.member key slots rest = .ok (next, behind) ↔
      next = slots ∧ ∃ start, Spaces rest (colon :: start) ∧ skipValue start = .ok behind := by
  constructor
  · intro taken
    simp only [member, none, lenient, Bool.false_eq_true, if_false] at taken
    split at taken
    case h_1 => cases taken
    case h_2 start separated =>
      split at taken
      case h_1 => cases taken
      case h_2 last skipped =>
        cases taken
        exact ⟨rfl, start, colonAfter_eq_ok_iff.mp separated, skipped⟩
  · rintro ⟨rfl, start, spaces, skipped⟩
    simp only [member, none, lenient, Bool.false_eq_true, if_false,
      colonAfter_eq_ok_iff.mpr spaces, skipped]

variable {fuel : Nat} {first : Bool} {last : σ} {text : Bytes}

/-- One step over an object: its end, or one more member. -/
theorem membersWithin_eq_ok_iff :
    record.membersWithin (fuel + 1) first slots text = .ok (last, behind) ↔
      (record.missing? slots = none ∧ last = slots ∧
        ∃ rest, behind = closeBrace :: rest ∧ Spaces text behind) ∨
      ∃ start key afterKey next afterValue, Gap first text (quote :: start) ∧
        Quoted start key.toList afterKey ∧
        record.member key slots afterKey = .ok (next, afterValue) ∧
        record.membersWithin fuel false next afterValue = .ok (last, behind) := by
  constructor
  · intro taken
    rw [membersWithin] at taken
    split at taken
    case h_1 => cases taken
    case h_2 ended next =>
      split at taken
      case h_1 => cases taken
      case h_2 complete =>
        cases taken
        exact .inl ⟨complete, rfl, closing_of_nextMember next⟩
    case h_3 start next =>
      split at taken
      case h_1 => cases taken
      case h_2 key afterKey quoted =>
        split at taken
        case h_1 => cases taken
        case h_2 slots' afterValue memberTaken =>
          exact .inr ⟨start, key, afterKey, slots', afterValue, nextMember_eq_ok_iff.mp next,
            stringBody_eq_ok_iff.mp quoted, memberTaken, taken⟩
  · rintro (⟨complete, rfl, rest, rfl, spaces⟩ |
      ⟨start, key, afterKey, slots', afterValue, gap, quoted, memberTaken, taken⟩)
    · simp only [membersWithin, nextMember_closing spaces, complete]
    · simp only [membersWithin, nextMember_eq_ok_iff.mpr gap, stringBody_eq_ok_iff.mpr quoted,
        memberTaken, taken]

/-- Behind the last element only fields that are not required are passed over. -/
theorem items_closing {fields : List (FieldReader σ)} {index : Nat} :
    record.items fields index slots (closeBracket :: rest) = .ok (last, behind) ↔
      (∀ field ∈ fields, field.required = false) ∧ last = slots ∧
        behind = closeBracket :: rest := by
  induction fields generalizing index with
  | nil =>
    rw [items, Except.ok.injEq, Prod.mk.injEq, eq_comm, @eq_comm _ behind]
    exact ⟨fun same => ⟨nofun, same⟩, fun found => found.2⟩
  | cons field fields ih =>
    rw [items, nextElement_closing (.none _)]
    cases required : field.required with
    | true =>
      refine ⟨nofun, fun found => ?_⟩
      exact absurd (found.1 field List.mem_cons_self) (Bool.not_eq_false _ ▸ required)
    | false =>
      simp only [Bool.false_eq_true, if_false, ih, List.forall_mem_cons, required, true_and]

/-- One step over an array: its end, or one more element. -/
theorem items_eq_ok_iff {field : FieldReader σ} {more : List (FieldReader σ)} {index : Nat} :
    record.items (field :: more) index slots text = .ok (last, behind) ↔
      ((∀ other ∈ field :: more, other.required = false) ∧ last = slots ∧
        ∃ rest, behind = closeBracket :: rest ∧ Spaces text behind) ∨
      ∃ start next middle, nextElement (index == 0) text = .ok (true, start) ∧
        field.read slots start = .ok (next, middle) ∧
        record.items more (index + 1) next middle = .ok (last, behind) := by
  constructor
  · intro taken
    rw [items] at taken
    split at taken
    case h_1 => cases taken
    case h_2 ended next =>
      obtain ⟨rest, rfl, spaces⟩ := closing_of_nextElement next
      split at taken
      case isTrue => cases taken
      case isFalse optional =>
        obtain ⟨others, rfl, rfl⟩ := items_closing.mp taken
        exact .inl ⟨List.forall_mem_cons.mpr ⟨Bool.eq_false_iff.mpr optional, others⟩, rfl, rest,
          rfl, spaces⟩
    case h_3 start next =>
      split at taken
      case h_1 => cases taken
      case h_2 slots' middle read => exact .inr ⟨start, slots', middle, next, read, taken⟩
  · rintro (⟨optional, rfl, rest, rfl, spaces⟩ | ⟨start, slots', middle, next, read, taken⟩)
    · obtain ⟨own, others⟩ := List.forall_mem_cons.mp optional
      rw [items, nextElement_closing spaces]
      simp only [own, Bool.false_eq_true, if_false]
      exact items_closing.mpr ⟨others, rfl, rfl⟩
    · simp only [items, next, read, taken]

end Record

/-- What is accepted is accepted with a value that the tree describes. -/
theorem Reader.Exact.described {α : Type} {reader : Reader α} {shape : Shape}
    {kind : Tree → α → Prop} (exact : reader.Exact shape kind) {text start rest : Bytes} {v : Tree}
    {x : α} (spaces : Spaces text start) (stands : Stands start v rest)
    (delimited : Delimited rest) (read : reader text = .ok (x, rest)) : kind v x := by
  obtain ⟨start', v', spaces', stands', -, described⟩ := exact.sound read
  have front := stands.skipSpace_eq spaces
  rw [stands'.skipSpace_eq spaces'] at front
  subst front
  obtain ⟨rfl, -⟩ := stands.unique delimited stands' delimited
  exact described

/-! ## Slots -/

/-- A field whose values go into one slot, and what they look like. -/
structure Slot (σ : Type) where
  name : String
  required : Bool
  Value : Type
  value : Reader Value
  get : σ → Option Value
  set : σ → Value → σ
  shape : Shape
  kind : Tree → Value → Prop
  exact : value.Exact shape kind
  get_set : ∀ slots x, get (set slots x) = some x

namespace Slot
variable {σ : Type}

/-- A slot for what an exact reader reads. -/
def of {Value : Type} {value : Reader Value} {shape : Shape} {kind : Tree → Value → Prop}
    (name : String) (required : Bool) (exact : value.Exact shape kind) (get : σ → Option Value)
    (set : σ → Value → σ) (get_set : ∀ slots x, get (set slots x) = some x) : Slot σ :=
  ⟨name, required, Value, value, get, set, shape, kind, exact, get_set⟩

def field (slot : Slot σ) : FieldReader σ :=
  .slot slot.name slot.required slot.value slot.get slot.set

def expected (slot : Slot σ) : String × Bool × Shape :=
  (slot.name, slot.required, slot.shape)

/-- Two fields that have nothing to do with each other. -/
structure Apart (slot other : Slot σ) : Prop where
  names : slot.name ≠ other.name
  keeps : ∀ slots x, other.get (slot.set slots x) = other.get slots
  kept : ∀ slots x, slot.get (other.set slots x) = slot.get slots

instance : Std.Symm (@Apart σ) :=
  ⟨fun _ _ apart => ⟨apart.names.symm, apart.kept, apart.keeps⟩⟩

theorem pairwise_two {a b : Slot σ} (ab : a.Apart b) : [a, b].Pairwise Apart :=
  .cons (List.forall_mem_singleton.mpr ab) (List.pairwise_singleton Apart b)

theorem pairwise_three {a b c : Slot σ} (ab : a.Apart b) (ac : a.Apart c) (bc : b.Apart c) :
    [a, b, c].Pairwise Apart :=
  .cons (List.forall_mem_cons.mpr ⟨ab, List.forall_mem_singleton.mpr ac⟩) (pairwise_two bc)

theorem isSet_field {slot : Slot σ} {slots : σ} :
    slot.field.isSet slots = true ↔ slot.get slots ≠ none := by
  rw [field, FieldReader.slot, Option.isSome_iff_ne_none]

theorem unset_field {slot : Slot σ} {slots : σ} :
    slot.field.isSet slots = false ↔ slot.get slots = none :=
  FieldReader.unset_slot_iff

theorem read_eq_ok_iff {slot : Slot σ} {slots next : σ} {text rest : Bytes} :
    slot.field.read slots text = .ok (next, rest) ↔
      ∃ x, slot.value text = .ok (x, rest) ∧ next = slot.set slots x :=
  FieldReader.read_slot_eq_ok_iff

end Slot

structure Layout {σ α : Type} (record : Record σ α) (layout : List (Slot σ)) : Prop where
  fields : record.fields = layout.map Slot.field
  strict : record.strict = true
  apart : layout.Pairwise Slot.Apart
  empty : ∀ slot ∈ layout, slot.get record.empty = none

section
variable {σ : Type} (layout : List (Slot σ))

/-- The slots hold the values that were found under their names. -/
def Filled (parts : List (String × Tree)) (slots : σ) : Prop :=
  ∀ slot ∈ layout, match slot.get slots with
    | some x => Tree.Gives parts slot.name slot.kind x
    | none => parts.lookup slot.name = none

/-- All keys are known, none is there twice, and no value has a flaw. -/
structure Clean (parts : List (String × Tree)) : Prop where
  declared : ∀ part ∈ parts, ∃ slot ∈ layout, slot.name = part.1 ∧ ¬Flawed slot.shape part.2
  unique : (parts.map (·.1)).Nodup

variable {layout}
variable {parts : List (String × Tree)} {slots : σ} {slot : Slot σ} {v : Tree}

theorem Slot.eq_of_name (apart : layout.Pairwise Slot.Apart) {other : Slot σ}
    (mem : slot ∈ layout) (mem' : other ∈ layout) (same : slot.name = other.name) :
    slot = other := by
  by_contra different
  exact (apart.forall mem mem' different).names same

theorem Filled.get_eq_none_iff (filled : Filled layout parts slots) (mem : slot ∈ layout) :
    slot.get slots = none ↔ slot.name ∉ parts.map (·.1) := by
  have held := filled slot mem
  rw [← lookup_eq_none_iff]
  cases found : slot.get slots with
  | none =>
    rw [found] at held
    exact ⟨fun _ => held, fun _ => rfl⟩
  | some x =>
    rw [found] at held
    obtain ⟨v, there, -⟩ := held
    rw [there]
    exact ⟨nofun, nofun⟩

/-- What a slot holds in the end, or what stands for nothing. -/
theorem Filled.givesOr (filled : Filled layout parts slots) (mem : slot ∈ layout)
    (absent : slot.Value) :
    Tree.GivesOr parts slot.name slot.kind absent ((slot.get slots).getD absent) := by
  have held := filled slot mem
  rw [Tree.GivesOr]
  cases found : slot.get slots with
  | none =>
    rw [found] at held
    rw [held]
    rfl
  | some x =>
    rw [found] at held
    obtain ⟨v, there, described⟩ := held
    rw [there]
    exact described

theorem Filled.gives (filled : Filled layout parts slots) (mem : slot ∈ layout)
    (present : slot.get slots ≠ none) (absent : slot.Value) :
    Tree.Gives parts slot.name slot.kind ((slot.get slots).getD absent) := by
  have held := filled slot mem
  cases found : slot.get slots with
  | none => exact absurd found present
  | some x =>
    rw [found] at held
    exact held

theorem Filled.fill (apart : layout.Pairwise Slot.Apart) (filled : Filled layout parts slots)
    (mem : slot ∈ layout) (fresh : slot.name ∉ parts.map (·.1)) {x : slot.Value}
    (described : slot.kind v x) :
    Filled layout (parts ++ [(slot.name, v)]) (slot.set slots x) := by
  intro other mem'
  by_cases same : slot = other
  · subst same
    rw [slot.get_set]
    refine ⟨v, ?_, described⟩
    rw [List.lookup_append, lookup_eq_none_iff.mpr fresh, Option.none_or, lookup_cons_eq,
      if_pos rfl]
  · have pair := apart.forall mem mem' same
    have unchanged : (parts ++ [(slot.name, v)]).lookup other.name = parts.lookup other.name := by
      rw [List.lookup_append, lookup_cons_eq, if_neg pair.names.symm, List.lookup_nil,
        Option.or_none]
    have held := filled other mem'
    rw [pair.keeps]
    simp only [Tree.Gives, unchanged]
    exact held

theorem Clean.add (clean : Clean layout parts) (mem : slot ∈ layout)
    (fresh : slot.name ∉ parts.map (·.1)) (sound : ¬Flawed slot.shape v) :
    Clean layout (parts ++ [(slot.name, v)]) := by
  constructor
  · intro part there
    rcases List.mem_append.mp there with old | new
    · exact clean.declared part old
    · obtain rfl := List.mem_singleton.mp new
      exact ⟨slot, mem, rfl, sound⟩
  · rw [List.map_append, List.map_singleton, List.nodup_append]
    refine ⟨clean.unique, List.nodup_singleton _, ?_⟩
    rintro key old _ new rfl
    obtain rfl := List.mem_singleton.mp new
    exact fresh old

theorem keys_expected (layout : List (Slot σ)) :
    (layout.map Slot.expected).map (·.1) = layout.map (·.name) := by
  rw [List.map_map]
  rfl

/-- Which trees have no flaw as a record. -/
theorem unflawed_of_clean (clean : Clean layout (v.parts (layout.map (·.name))))
    (apart : layout.Pairwise Slot.Apart)
    (complete : ∀ slot ∈ layout, slot.required = true →
      slot.name ∈ (v.parts (layout.map (·.name))).map (·.1))
    (record : (∃ members, v = .object members) ∨
      ∃ values, v = .array values ∧ values.length ≤ layout.length) :
    ¬Flawed (.record (layout.map Slot.expected)) v := by
  intro flawed
  rw [← keys_expected] at clean complete
  cases flawed with
  | noRecord noObject noArray =>
    rcases record with ⟨members, rfl⟩ | ⟨values, rfl, -⟩
    · exact noObject members rfl
    · exact noArray values rfl
  | tooLong longer =>
    rw [List.length_map] at longer
    rcases record with ⟨members, object⟩ | ⟨values, array, short⟩
    · cases object
    · cases array
      exact Nat.not_lt.mpr short longer
  | undeclared there unknown =>
    obtain ⟨part, mem, rfl⟩ := List.mem_map.mp there
    obtain ⟨slot, declared, name, -⟩ := clean.declared part mem
    rw [keys_expected] at unknown
    exact unknown (name ▸ List.mem_map_of_mem declared)
  | repeated twice => exact twice clean.unique
  | missing required absent =>
    obtain ⟨slot, mem, same⟩ := List.mem_map.mp required
    rw [Slot.expected, Prod.mk.injEq, Prod.mk.injEq] at same
    exact absent (same.1 ▸ complete slot mem same.2.1)
  | part field there flawed =>
    obtain ⟨slot, mem, same⟩ := List.mem_map.mp field
    cases same
    obtain ⟨other, declared, name, sound⟩ := clean.declared _ there
    obtain rfl := Slot.eq_of_name apart declared mem name
    exact sound flawed

theorem clean_of_unflawed (sound : ¬Flawed (.record (layout.map Slot.expected)) v) :
    Clean layout (v.parts (layout.map (·.name))) ∧ ∀ slot ∈ layout, slot.required = true →
      slot.name ∈ (v.parts (layout.map (·.name))).map (·.1) := by
  rw [← keys_expected]
  refine ⟨⟨?_, ?_⟩, ?_⟩
  · intro part there
    have declared : part.1 ∈ (layout.map Slot.expected).map (·.1) := by
      by_contra unknown
      exact sound (.undeclared (List.mem_map_of_mem there) unknown)
    rw [keys_expected] at declared
    obtain ⟨slot, mem, name⟩ := List.mem_map.mp declared
    refine ⟨slot, mem, name, fun flawed => ?_⟩
    refine sound (.part (List.mem_map_of_mem mem) ?_ flawed)
    rw [name]
    exact there
  · by_contra twice
    exact sound (.repeated twice)
  · intro slot mem required
    by_contra absent
    have field : (slot.name, true, slot.shape) ∈ layout.map Slot.expected :=
      List.mem_map.mpr ⟨slot, mem, by rw [Slot.expected, required]⟩
    exact sound (.missing field absent)

end

namespace Layout
variable {σ α : Type} {record : Record σ α} {layout : List (Slot σ)}
  (laid : Layout record layout)
include laid

theorem find?_name {slot : Slot σ} (mem : slot ∈ layout) :
    record.fields.find? (·.name == slot.name) = some slot.field := by
  rw [laid.fields]
  cases found : (layout.map Slot.field).find? (·.name == slot.name) with
  | none =>
    have absent := List.find?_eq_none.mp found _ (List.mem_map_of_mem mem)
    exact absurd (beq_self_eq_true _) absent
  | some field =>
    obtain ⟨other, mem', rfl⟩ := List.mem_map.mp (List.mem_of_find?_eq_some found)
    have same := List.find?_some found
    rw [Slot.eq_of_name laid.apart mem' mem (beq_iff_eq.mp same)]

theorem member_eq_ok_iff {key : String} {slots next : σ} {rest behind : Bytes} :
    record.member key slots rest = .ok (next, behind) ↔
      ∃ slot ∈ layout, slot.name = key ∧ slot.get slots = none ∧
        ∃ start x, Spaces rest (colon :: start) ∧ slot.value start = .ok (x, behind) ∧
          next = slot.set slots x := by
  constructor
  · intro taken
    cases found : record.fields.find? (·.name == key) with
    | none =>
      simp only [Record.member, found, laid.strict, if_true] at taken
      cases taken
    | some field =>
      obtain ⟨there, name⟩ := Record.named_of_find? found
      rw [laid.fields] at there
      obtain ⟨slot, mem, rfl⟩ := List.mem_map.mp there
      obtain ⟨unset, start, separated, read⟩ := (Record.member_known_eq_ok_iff found).mp taken
      obtain ⟨x, valued, built⟩ := Slot.read_eq_ok_iff.mp read
      exact ⟨slot, mem, name, Slot.unset_field.mp unset, start, x, separated, valued,
        built⟩
  · rintro ⟨slot, mem, rfl, unset, start, x, separated, valued, built⟩
    have read := Slot.read_eq_ok_iff.mpr ⟨x, valued, built⟩
    exact (Record.member_known_eq_ok_iff (laid.find?_name mem)).mpr
      ⟨Slot.unset_field.mpr unset, start, separated, read⟩

theorem missing?_eq_none_iff {slots : σ} : record.missing? slots = none ↔
    ∀ slot ∈ layout, slot.required = true → slot.get slots ≠ none := by
  rw [Record.missing?, Option.map_eq_none_iff, List.find?_eq_none, laid.fields]
  simp only [List.forall_mem_map, Bool.and_eq_true, Bool.not_eq_true', not_and,
    Bool.not_eq_false, Slot.isSet_field]
  rfl

/-! ## Objects -/

/-- What is read up to the closing brace was well-formed, and fills the slots. -/
theorem entries_of_membersWithin {fuel : Nat} {first : Bool} {slots last : σ}
    {text behind rest : Bytes} {parts : List (String × Tree)} (filled : Filled layout parts slots)
    (clean : Clean layout parts)
    (taken : record.membersWithin fuel first slots text = .ok (last, behind))
    (closed : closeObject behind = .ok rest) :
    ∃ members, Entries first text members rest ∧ Filled layout (parts ++ members) last ∧
      Clean layout (parts ++ members) ∧ record.missing? last = none := by
  induction fuel generalizing first slots text parts with
  | zero => cases taken
  | succ fuel ih =>
    rcases Record.membersWithin_eq_ok_iff.mp taken with ⟨complete, rfl, _, rfl, spaces⟩ |
      ⟨start, key, afterKey, slots', afterValue, gap, quoted, memberTaken, taken⟩
    case inl =>
      refine ⟨[], .close (spaces.trans (closeObject_eq_ok_iff.mp closed)), ?_, ?_, complete⟩
      · rwa [List.append_nil]
      · rwa [List.append_nil]
    case inr =>
      obtain ⟨slot, mem, rfl, unset, separated, x, before, read, rfl⟩ :=
        laid.member_eq_ok_iff.mp memberTaken
      have fresh := (filled.get_eq_none_iff mem).mp unset
      obtain ⟨front, v, spaces, stands, sound, described⟩ := slot.exact.sound read
      obtain ⟨members, others, filled', clean', complete⟩ :=
        ih (filled.fill laid.apart mem fresh described) (clean.add mem fresh sound) taken
      rw [List.append_assoc, List.singleton_append] at filled' clean'
      have entry : Entry start (slot.name, v) afterValue := .pair quoted before spaces stands
      exact ⟨_, .of_gap gap entry others, filled', clean', complete⟩

theorem membersWithin_of_entries {fuel : Nat} {first : Bool} {slots : σ} {text rest : Bytes}
    {parts members : List (String × Tree)} (entries : Entries first text members rest)
    (enough : members.length < fuel) (filled : Filled layout parts slots)
    (clean : Clean layout (parts ++ members))
    (complete : ∀ slot ∈ layout, slot.required = true → slot.name ∈ (parts ++ members).map (·.1)) :
    ∃ last, record.membersWithin fuel first slots text = .ok (last, closeBrace :: rest) := by
  induction members generalizing fuel first slots text parts with
  | nil =>
    cases fuel with
    | zero => cases enough
    | succ fuel =>
      rw [List.append_nil] at complete
      have none : record.missing? slots = none := by
        refine laid.missing?_eq_none_iff.mpr fun slot mem required absent => ?_
        exact (filled.get_eq_none_iff mem).mp absent (complete slot mem required)
      exact ⟨slots, Record.membersWithin_eq_ok_iff.mpr
        (.inl ⟨none, rfl, rest, rfl, entries.closing⟩)⟩
  | cons member members ih =>
    cases fuel with
    | zero => cases enough
    | succ fuel =>
      obtain ⟨start, behind, gap, entry, others⟩ := entries.exists_gap
      cases entry with
      | @pair _ afterKey separated front _ key v quoted before spaces stands =>
        obtain ⟨slot, mem, rfl, sound⟩ := clean.declared (key, v)
          (List.mem_append_right parts List.mem_cons_self)
        have fresh : slot.name ∉ parts.map (·.1) := by
          intro there
          have apart := clean.unique
          rw [List.map_append] at apart
          exact List.disjoint_of_nodup_append apart there List.mem_cons_self
        have unset := (filled.get_eq_none_iff mem).mpr fresh
        obtain ⟨x, read⟩ := slot.exact.complete spaces stands others.delimited sound
        have described := slot.exact.described spaces stands others.delimited read
        have taken := laid.member_eq_ok_iff.mpr
          ⟨slot, mem, rfl, unset, separated, x, before, read, rfl⟩
        rw [← List.singleton_append, ← List.append_assoc] at clean complete
        obtain ⟨last, further⟩ := ih others (Nat.lt_of_succ_lt_succ enough)
          (filled.fill laid.apart mem fresh described) clean complete
        exact ⟨last, Record.membersWithin_eq_ok_iff.mpr
          (.inr ⟨start, slot.name, afterKey, _, behind, gap, quoted, taken, further⟩)⟩

/-! ## Arrays -/

omit laid in
theorem elements_of_items {more : List (Slot σ)} {index : Nat} {slots last : σ}
    {text behind rest : Bytes} {parts : List (String × Tree)}
    (apart : layout.Pairwise Slot.Apart) (sub : more.Sublist layout)
    (fresh : ∀ slot ∈ more, slot.name ∉ parts.map (·.1)) (filled : Filled layout parts slots)
    (clean : Clean layout parts)
    (taken : record.items (more.map Slot.field) index slots text = .ok (last, behind))
    (closed : closeArray behind = .ok rest) :
    ∃ values, Elements (index == 0) text values rest ∧ values.length ≤ more.length ∧
      Filled layout (parts ++ (more.map (·.name)).zip values) last ∧
      Clean layout (parts ++ (more.map (·.name)).zip values) ∧
      ∀ slot ∈ more, slot.required = true →
        slot.name ∈ ((more.map (·.name)).zip values).map (·.1) := by
  induction more generalizing index slots text parts with
  | nil =>
    cases taken
    refine ⟨[], .close (closeArray_eq_ok_iff.mp closed), Nat.le_refl _, ?_, ?_, nofun⟩
    · rwa [List.map_nil, List.zip_nil_left, List.append_nil]
    · rwa [List.map_nil, List.zip_nil_left, List.append_nil]
  | cons slot more ih =>
    rw [List.map_cons] at taken
    rcases Record.items_eq_ok_iff.mp taken with ⟨optional, rfl, _, rfl, spaces⟩ |
      ⟨start, slots', middle, next, read, taken⟩
    case inl =>
      refine ⟨[], .close (spaces.trans (closeArray_eq_ok_iff.mp closed)), Nat.zero_le _, ?_, ?_, ?_⟩
      · rwa [List.zip_nil_right, List.append_nil]
      · rwa [List.zip_nil_right, List.append_nil]
      · intro other mem required
        have none := optional other.field (List.mem_map_of_mem mem)
        exact absurd required (Bool.eq_false_iff.mp none)
    case inr =>
      obtain ⟨x, valued, rfl⟩ := Slot.read_eq_ok_iff.mp read
      obtain ⟨front, v, spaces, stands, sound, described⟩ := slot.exact.sound valued
      have mem := sub.subset List.mem_cons_self
      have new := fresh slot List.mem_cons_self
      have names := List.pairwise_cons.mp (apart.sublist sub)
      have fresh' : ∀ other ∈ more, other.name ∉ (parts ++ [(slot.name, v)]).map (·.1) := by
        intro other later there
        rw [List.map_append, List.mem_append, List.map_singleton, List.mem_singleton] at there
        rcases there with old | same
        · exact fresh other (List.mem_cons_of_mem slot later) old
        · exact (names.1 other later).names same.symm
      obtain ⟨values, others, short, filled', clean', complete⟩ :=
        ih ((List.sublist_cons_self slot more).trans sub) fresh'
          (filled.fill apart mem new described) (clean.add mem new sound) taken
      rw [List.append_assoc, List.singleton_append] at filled' clean'
      refine ⟨v :: values, .cons next spaces stands others, Nat.succ_le_succ short, filled',
        clean', ?_⟩
      intro other there required
      rcases List.mem_cons.mp there with rfl | later
      · exact List.mem_cons_self
      · exact List.mem_cons_of_mem _ (complete other later required)

omit laid in
theorem items_of_elements {more : List (Slot σ)} {index : Nat} {slots : σ} {text rest : Bytes}
    {values : List Tree} (elements : Elements (index == 0) text values rest)
    (short : values.length ≤ more.length) (apart : more.Pairwise Slot.Apart)
    (unflawed : ∀ slot v, (slot, v) ∈ more.zip values → ¬Flawed slot.shape v)
    (complete : ∀ slot ∈ more, slot.required = true →
      slot.name ∈ ((more.map (·.name)).zip values).map (·.1)) :
    ∃ last behind, record.items (more.map Slot.field) index slots text = .ok (last, behind) ∧
      closeArray behind = .ok rest := by
  induction more generalizing index slots text values with
  | nil =>
    obtain rfl := List.length_eq_zero_iff.mp (Nat.le_zero.mp short)
    exact ⟨slots, text, rfl, closeArray_eq_ok_iff.mpr elements.closing⟩
  | cons slot more ih =>
    cases values with
    | nil =>
      rw [List.zip_nil_right, List.map_nil] at complete
      have optional : ∀ field ∈ (slot :: more).map Slot.field, field.required = false := by
        refine List.forall_mem_map.mpr fun other mem => ?_
        exact Bool.eq_false_iff.mpr fun required => nomatch complete other mem required
      refine ⟨slots, closeBracket :: rest, ?_, closeArray_eq_ok_iff.mpr (.none _)⟩
      exact Record.items_eq_ok_iff.mpr (.inl ⟨optional, rfl, rest, rfl, elements.closing⟩)
    | cons v values =>
      obtain ⟨start, behind, next, stands, others⟩ := elements.nextElement_cons
      have sound := unflawed slot v List.mem_cons_self
      obtain ⟨x, valued⟩ := slot.exact.complete (.none start) stands others.delimited sound
      have read : slot.field.read slots start = .ok (slot.set slots x, behind) :=
        Slot.read_eq_ok_iff.mpr ⟨x, valued, rfl⟩
      have names := List.pairwise_cons.mp apart
      have complete' : ∀ other ∈ more, other.required = true →
          other.name ∈ ((more.map (·.name)).zip values).map (·.1) := by
        intro other later required
        have there := complete other (List.mem_cons_of_mem slot later) required
        rcases List.mem_cons.mp there with same | found
        · exact absurd same.symm (names.1 other later).names
        · exact found
      have later : ∃ last left, record.items (more.map Slot.field) (index + 1) (slot.set slots x)
          behind = .ok (last, left) ∧ closeArray left = .ok rest :=
        ih others (Nat.le_of_succ_le_succ short) names.2
          (fun other w mem => unflawed other w (List.mem_cons_of_mem _ mem)) complete'
      obtain ⟨last, left, taken, closed⟩ := later
      exact ⟨last, left, Record.items_eq_ok_iff.mpr (.inr ⟨start, _, behind, next, read, taken⟩),
        closed⟩

/-! ## Records -/

theorem filled_empty : Filled layout [] record.empty := by
  intro slot mem
  rw [laid.empty slot mem]
  rfl

omit laid in
theorem clean_nil : Clean layout [] :=
  ⟨nofun, List.nodup_nil⟩

/-- A record is read exactly when its fields are, if what is built from the slots is what they
describe. -/
theorem exact_record {kind : Tree → α → Prop}
    (built : ∀ v slots, Filled layout (v.parts (layout.map (·.name))) slots →
      (∀ slot ∈ layout, slot.required = true → slot.get slots ≠ none) →
        kind v (record.build slots)) :
    record.reader.Exact (.record (layout.map Slot.expected)) kind where
  sound := by
    intro text rest x taken
    have held {v : Tree} {slots : σ} (filled : Filled layout (v.parts (layout.map (·.name))) slots)
        (complete : ∀ slot ∈ layout, slot.required = true → slot.get slots ≠ none) :
        ∀ slot ∈ layout, slot.required = true →
          slot.name ∈ (v.parts (layout.map (·.name))).map (·.1) := by
      intro slot mem required
      by_contra absent
      exact complete slot mem required ((filled.get_eq_none_iff mem).mpr absent)
    rw [Record.reader] at taken
    split at taken
    case h_1 => cases taken
    case h_2 b more front =>
      have spaces := spaces_of_skipSpace front
      split at taken
      case isTrue isBrace =>
        subst isBrace
        split at taken
        case h_1 => cases taken
        case h_2 => cases taken
        case h_3 slots behind within =>
          obtain ⟨last, closed, result⟩ := map_eq_ok_iff.mp taken
          cases result
          obtain ⟨members, entries, filled, clean, none⟩ :=
            laid.entries_of_membersWithin laid.filled_empty clean_nil within closed
          have complete := laid.missing?_eq_none_iff.mp none
          exact ⟨_, .object members, spaces, .object entries,
            unflawed_of_clean clean laid.apart (held filled complete) (.inl ⟨members, rfl⟩),
            built _ _ filled complete⟩
      case isFalse =>
        split at taken
        case isFalse => exact absurd taken mismatch_ne_ok
        case isTrue isBracket =>
          subst isBracket
          split at taken
          case h_1 => cases taken
          case h_2 => cases taken
          case h_3 slots behind within =>
            obtain ⟨last, closed, result⟩ := map_eq_ok_iff.mp taken
            cases result
            rw [laid.fields] at within
            obtain ⟨values, elements, short, filled, clean, complete⟩ :=
              elements_of_items laid.apart (.refl layout) (fun _ _ => List.not_mem_nil)
                laid.filled_empty clean_nil within closed
            refine ⟨_, .array values, spaces, .array elements,
              unflawed_of_clean clean laid.apart complete (.inr ⟨values, rfl, short⟩),
              built _ _ filled ?_⟩
            intro slot mem required unset
            exact (filled.get_eq_none_iff mem).mp unset (complete slot mem required)
  complete := by
    intro text start rest v spaces stands delimited sound
    obtain ⟨clean, complete⟩ := clean_of_unflawed sound
    cases v with
    | object members =>
      cases stands with
      | @object more _ _ entries =>
        have shorter := entries.shorter
        have enough : members.length < more.length + 1 := by omega
        obtain ⟨last, within⟩ :=
          laid.membersWithin_of_entries entries enough laid.filled_empty clean complete
        refine ⟨record.build last, ?_⟩
        rw [Record.reader, spaces.skipSpace_cons rfl]
        simp only [if_true, within]
        rfl
    | array values =>
      cases stands with
      | @array more _ _ elements =>
        have short : values.length ≤ layout.length := by
          by_contra longer
          refine sound (.tooLong ?_)
          rw [List.length_map]
          exact Nat.lt_of_not_le longer
        have unflawed : ∀ slot v, (slot, v) ∈ layout.zip values → ¬Flawed slot.shape v := by
          intro slot v mem flawed
          have field : slot.expected ∈ layout.map Slot.expected :=
            List.mem_map_of_mem (List.of_mem_zip mem).1
          refine sound (.part field ?_ flawed)
          rw [keys_expected, Tree.parts, List.zip_map_left]
          exact List.mem_map_of_mem mem
        have read : ∃ last behind, record.items record.fields 0 record.empty more =
            .ok (last, behind) ∧ closeArray behind = .ok rest := by
          rw [laid.fields]
          exact items_of_elements elements short laid.apart unflawed complete
        obtain ⟨last, behind, within, closed⟩ := read
        refine ⟨record.build last, ?_⟩
        rw [Record.reader, spaces.skipSpace_cons rfl]
        simp only [within, closed]
        rfl
    | null => exact absurd (.noRecord nofun nofun) sound
    | bool => exact absurd (.noRecord nofun nofun) sound
    | number => exact absurd (.noRecord nofun nofun) sound
    | string => exact absurd (.noRecord nofun nofun) sound

end Layout

end LinkGate.Json
