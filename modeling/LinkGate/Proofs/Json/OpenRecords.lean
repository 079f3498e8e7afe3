import LinkGate.Proofs.Json.Skipped

/-!
# Records with further keys

A record that is not strict passes over the members it has no field for, as long as their values are
well-formed.  The members that count go into the fields of their names, each of them once
(`Gathered`), and an array gives the fields their values in order (`GatheredInOrder`).
-/

set_option autoImplicit false

namespace LinkGate.Json

/-- The members that are left of an object, with its closing brace.  Only those with a known key
count, and all others are passed over. -/
inductive OpenEntries (known : List String) :
    Bool → Bytes → List (String × Tree) → Bytes → Prop where
  | close {first : Bool} {text rest : Bytes} (spaces : Spaces text (closeBrace :: rest)) :
    OpenEntries known first text [] rest
  | known {first : Bool} {text key behind rest : Bytes} {member : String × Tree}
    {members : List (String × Tree)} (gap : Gap first text (quote :: key))
    (isKnown : member.1 ∈ known) (entry : Entry key member behind)
    (others : OpenEntries known .false behind members rest) :
    OpenEntries known first text (member :: members) rest
  | further {first : Bool} {text key behind separated start after rest : Bytes} {name : String}
    {members : List (String × Tree)} (gap : Gap first text (quote :: key))
    (unknown : name ∉ known) (quoted : Quoted key name.toList behind)
    (before : Spaces behind (colon :: separated)) (spaces : Spaces separated start)
    (value : Skipped start after) (others : OpenEntries known .false after members rest) :
    OpenEntries known first text members rest

theorem OpenEntries.delimited {known : List String} {text rest : Bytes}
    {members : List (String × Tree)} (entries : OpenEntries known .false text members rest) :
    Delimited text := by
  cases entries with
  | close spaces => exact spaces.delimited (delimited_cons (.inr (.inr rfl)))
  | known gap | further gap => exact gap.delimited

/-- An object without further keys. -/
theorem OpenEntries.of_entries {known : List String} {first : Bool} {text rest : Bytes}
    {members : List (String × Tree)} (entries : Entries first text members rest)
    (all : ∀ member ∈ members, member.1 ∈ known) : OpenEntries known first text members rest := by
  induction members generalizing first text with
  | nil =>
    exact .close entries.closing
  | cons member members ih =>
    obtain ⟨isKnown, later⟩ := List.forall_mem_cons.mp all
    obtain ⟨key, behind, gap, entry, others⟩ := entries.exists_gap
    exact .known gap isKnown entry (ih others later)

section
variable {σ α : Type} (record : Record σ α) (makes : String → Tree → σ → σ → Prop)

/-- A record that passes over the keys it does not know, and what its fields make of values. -/
structure Lenient : Prop where
  lenient : record.strict = false
  takes : ∀ field ∈ record.fields, ∀ slots, (field.read slots).Takes (makes field.name · slots)

/-- Some members, and the slots before and after them. -/
inductive Gathered : σ → List (String × Tree) → σ → Prop where
  | nil (slots : σ) : Gathered slots [] slots
  | cons {slots next last : σ} {field : FieldReader σ} {key : String} {v : Tree}
    {members : List (String × Tree)} (found : record.fields.find? (·.name == key) = some field)
    (unset : field.isSet slots = false) (made : makes key v slots next)
    (others : Gathered next members last) : Gathered slots ((key, v) :: members) last

/-- Some values for fields in their order.  Only fields that are not required may be left. -/
inductive GatheredInOrder : List (FieldReader σ) → σ → List Tree → σ → Prop where
  | nil {fields : List (FieldReader σ)} (slots : σ)
    (optional : ∀ field ∈ fields, field.required = false) : GatheredInOrder fields slots [] slots
  | cons {fields : List (FieldReader σ)} {slots next last : σ} {field : FieldReader σ} {v : Tree}
    {values : List Tree} (made : makes field.name v slots next)
    (others : GatheredInOrder fields next values last) :
    GatheredInOrder (field :: fields) slots (v :: values) last

/-- A record at the front of a text. -/
inductive OpenRecord : Bytes → α → Bytes → Prop where
  | object {text inner rest : Bytes} {members : List (String × Tree)} {last : σ}
    (before : Spaces text (openBrace :: inner))
    (entries : OpenEntries record.keys true inner members rest)
    (gathered : Gathered record makes record.empty members last)
    (complete : record.missing? last = none) : OpenRecord text (record.build last) rest
  | array {text inner rest : Bytes} {values : List Tree} {last : σ}
    (before : Spaces text (openBracket :: inner)) (elements : Elements true inner values rest)
    (gathered : GatheredInOrder makes record.fields record.empty values last) :
    OpenRecord text (record.build last) rest

end

/-- The field of a slot takes what its reader takes. -/
theorem Reader.Takes.slot {σ β : Type} {name : String} {required : Bool} {value : Reader β}
    {get : σ → Option β} {set : σ → β → σ} {slots : σ} {kind : Tree → β → Prop}
    {made : Tree → σ → Prop} (takes : value.Takes kind)
    (same : ∀ v next, made v next ↔ ∃ x, kind v x ∧ next = set slots x) :
    ((FieldReader.slot name required value get set).read slots).Takes made where
  sound := by
    intro text rest next taken
    obtain ⟨x, valued, built⟩ := FieldReader.read_slot_eq_ok_iff.mp taken
    obtain ⟨start, v, spaces, stands, described⟩ := takes.sound valued
    exact ⟨start, v, spaces, stands, (same v next).mpr ⟨x, described, built⟩⟩
  complete := by
    intro text start rest v next spaces stands delimited isMade
    obtain ⟨x, described, built⟩ := (same v next).mp isMade
    exact FieldReader.read_slot_eq_ok_iff.mpr
      ⟨x, takes.complete spaces stands delimited described, built⟩

namespace Lenient
variable {σ α : Type} {record : Record σ α} {makes : String → Tree → σ → σ → Prop}
  (own : Lenient record makes)
include own

/-! ## Objects -/

theorem entries_of_membersWithin {fuel : Nat} {first : Bool} {slots last : σ}
    {text behind rest : Bytes}
    (taken : record.membersWithin fuel first slots text = .ok (last, behind))
    (closed : closeObject behind = .ok rest) :
    ∃ members, OpenEntries record.keys first text members rest ∧
      Gathered record makes slots members last ∧ record.missing? last = none := by
  induction fuel generalizing first slots text with
  | zero => cases taken
  | succ fuel ih =>
    rcases Record.membersWithin_eq_ok_iff.mp taken with ⟨complete, rfl, _, rfl, spaces⟩ |
      ⟨start, key, afterKey, next, afterValue, gap, quoted, memberTaken, taken⟩
    case inl =>
      exact ⟨[], .close (spaces.trans (closeObject_eq_ok_iff.mp closed)), .nil _, complete⟩
    case inr =>
      obtain ⟨members, others, gathered, complete⟩ := ih taken
      cases found : record.fields.find? (·.name == key) with
      | none =>
        obtain ⟨rfl, separated, before, skipped⟩ :=
          (Record.member_unknown_eq_ok_iff own.lenient found).mp memberTaken
        obtain ⟨front, spaces, value⟩ := skipped_of_skipValue skipped
        have unknown := Record.find?_eq_none_iff.mp found
        exact ⟨members, .further gap unknown quoted before spaces value others, gathered,
          complete⟩
      | some field =>
        obtain ⟨unset, separated, before, read⟩ :=
          (Record.member_known_eq_ok_iff found).mp memberTaken
        obtain ⟨mem, rfl⟩ := Record.named_of_find? found
        obtain ⟨front, v, spaces, stands, made⟩ := (own.takes field mem slots).sound read
        have entry : Entry start (field.name, v) afterValue := .pair quoted before spaces stands
        exact ⟨(field.name, v) :: members, .known gap (List.mem_map_of_mem mem) entry others,
          .cons found unset made gathered, complete⟩

theorem membersWithin_of_entries {fuel : Nat} {first : Bool} {slots last : σ} {text rest : Bytes}
    {members : List (String × Tree)} (entries : OpenEntries record.keys first text members rest)
    (enough : text.length < fuel) (gathered : Gathered record makes slots members last)
    (complete : record.missing? last = none) :
    record.membersWithin fuel first slots text = .ok (last, closeBrace :: rest) := by
  -- by the grammar, since members that are passed over leave no trace in `members`
  obtain ⟨fuel, rfl⟩ := Nat.exists_eq_add_one_of_ne_zero (Nat.ne_zero_of_lt enough)
  induction entries generalizing fuel slots with
  | close spaces =>
    cases gathered with
    | nil => exact Record.membersWithin_eq_ok_iff.mpr (.inl ⟨complete, rfl, _, rfl, spaces⟩)
  | @known _ text afterQuote behind _ _ _ gap isKnown entry others ih =>
    cases gathered with
    | @cons _ next _ field key v _ found unset made gathered =>
      have shorter := gap.shorter
      have further := entry.shorter
      cases entry with
      | pair quoted before spaces stands =>
        obtain ⟨mem, rfl⟩ := Record.named_of_find? found
        have read := (own.takes field mem slots).complete spaces stands others.delimited made
        have taken : record.member field.name slots _ = .ok (next, behind) :=
          (Record.member_known_eq_ok_iff found).mpr ⟨unset, _, before, read⟩
        rw [List.length_cons] at shorter
        obtain ⟨fuel, rfl⟩ := Nat.exists_eq_add_one_of_ne_zero (n := fuel) (by omega)
        exact Record.membersWithin_eq_ok_iff.mpr (.inr
          ⟨_, field.name, _, next, behind, gap, quoted, taken, ih gathered fuel (by omega)⟩)
  | @further _ text afterQuote afterKey separated start after _ name _ gap unknown quoted before
      spaces value others ih =>
    have none := Record.find?_eq_none_iff.mpr unknown
    have skipped := value.skipValue_eq spaces others.delimited
    have taken : record.member name slots afterKey = .ok (slots, after) :=
      (Record.member_unknown_eq_ok_iff own.lenient none).mpr ⟨rfl, separated, before, skipped⟩
    have shorter := gap.shorter
    have key := quoted.shorter
    have colon := before.shorter
    have inner := spaces.shorter
    have passed := value.shorter
    rw [List.length_cons] at shorter colon
    obtain ⟨fuel, rfl⟩ := Nat.exists_eq_add_one_of_ne_zero (n := fuel) (by omega)
    exact Record.membersWithin_eq_ok_iff.mpr (.inr
      ⟨afterQuote, name, afterKey, slots, after, gap, quoted, taken, ih gathered fuel (by omega)⟩)

/-! ## Arrays -/

theorem elements_of_items {fields : List (FieldReader σ)} (sub : fields ⊆ record.fields)
    {index : Nat} {slots last : σ} {text behind rest : Bytes}
    (taken : record.items fields index slots text = .ok (last, behind))
    (closed : closeArray behind = .ok rest) :
    ∃ values, Elements (index == 0) text values rest ∧
      GatheredInOrder makes fields slots values last := by
  induction fields generalizing index slots text with
  | nil =>
    cases taken
    exact ⟨[], .close (closeArray_eq_ok_iff.mp closed), .nil _ fun _ => nofun⟩
  | cons field fields ih =>
    rcases Record.items_eq_ok_iff.mp taken with ⟨optional, rfl, _, rfl, spaces⟩ |
      ⟨start, next, middle, follows, read, taken⟩
    case inl =>
      exact ⟨[], .close (spaces.trans (closeArray_eq_ok_iff.mp closed)), .nil _ optional⟩
    case inr =>
      have mem := sub List.mem_cons_self
      obtain ⟨front, v, spaces, stands, made⟩ := (own.takes field mem slots).sound read
      obtain ⟨values, others, gathered⟩ := ih (List.subset_of_cons_subset sub) taken
      exact ⟨v :: values, .cons follows spaces stands others, .cons made gathered⟩

theorem items_of_elements {fields : List (FieldReader σ)} (sub : fields ⊆ record.fields)
    {index : Nat} {slots last : σ} {text rest : Bytes} {values : List Tree}
    (elements : Elements (index == 0) text values rest)
    (gathered : GatheredInOrder makes fields slots values last) :
    ∃ behind, record.items fields index slots text = .ok (last, behind) ∧
      closeArray behind = .ok rest := by
  induction gathered generalizing index text with
  | @nil fields slots optional =>
    cases fields with
    | nil => exact ⟨text, rfl, closeArray_eq_ok_iff.mpr elements.closing⟩
    | cons field fields =>
      refine ⟨closeBracket :: rest, ?_, closeArray_eq_ok_iff.mpr (.none _)⟩
      exact Record.items_eq_ok_iff.mpr (.inl ⟨optional, rfl, rest, rfl, elements.closing⟩)
  | @cons fields slots next last field v values made gathered ih =>
    obtain ⟨start, behind, follows, stands, others⟩ := elements.nextElement_cons
    have read := (own.takes field (sub List.mem_cons_self) slots).complete (.none start) stands
      others.delimited made
    have later : ∃ left, record.items fields (index + 1) next behind = .ok (last, left) ∧
        closeArray left = .ok rest := ih (List.subset_of_cons_subset sub) others
    obtain ⟨left, taken, closed⟩ := later
    exact ⟨left, Record.items_eq_ok_iff.mpr (.inr ⟨start, next, behind, follows, read, taken⟩),
      closed⟩

/-! ## Records -/

theorem reader_eq_ok_iff {text rest : Bytes} {x : α} :
    record.reader text = .ok (x, rest) ↔ OpenRecord record makes text x rest := by
  constructor
  · intro taken
    rw [Record.reader] at taken
    split at taken
    case h_1 => cases taken
    case h_2 b inner front =>
      have before := spaces_of_skipSpace front
      split at taken
      case isTrue isBrace =>
        subst isBrace
        split at taken
        case h_1 => cases taken
        case h_2 => cases taken
        case h_3 last behind within =>
          obtain ⟨_, closed, result⟩ := map_eq_ok_iff.mp taken
          cases result
          obtain ⟨members, entries, gathered, complete⟩ :=
            own.entries_of_membersWithin within closed
          exact .object before entries gathered complete
      case isFalse =>
        split at taken
        case isFalse => exact absurd taken mismatch_ne_ok
        case isTrue isBracket =>
          subst isBracket
          split at taken
          case h_1 => cases taken
          case h_2 => cases taken
          case h_3 last behind within =>
            obtain ⟨_, closed, result⟩ := map_eq_ok_iff.mp taken
            cases result
            obtain ⟨values, elements, gathered⟩ :=
              own.elements_of_items (List.Subset.refl _) within closed
            exact .array before elements gathered
  · intro standing
    cases standing with
    | object before entries gathered complete =>
      have within := own.membersWithin_of_entries entries (Nat.lt_succ_self _) gathered complete
      rw [Record.reader, before.skipSpace_cons rfl]
      simp only [if_true, within]
      rfl
    | @array inner _ _ last before elements gathered =>
      obtain ⟨behind, within, closed⟩ : ∃ behind,
          record.items record.fields 0 record.empty inner = .ok (last, behind) ∧
            closeArray behind = .ok rest :=
        own.items_of_elements (List.Subset.refl _) elements gathered
      rw [Record.reader, before.skipSpace_cons rfl]
      simp only [within, closed]
      rfl

end Lenient

end LinkGate.Json
