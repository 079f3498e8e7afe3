import LinkGate.Proofs.Json.Reads

/-!
# Records read back

A record reads an object member by member: each one fills the field of its name, which was empty
until then (`Fills`).  Where no required field is left empty in the end, the record is built.
-/

set_option autoImplicit false

namespace LinkGate.Json

/-- A key, from behind its opening quote, and its value. -/
def memberRest (key : String) (v : Json) (rest : Bytes) : Bytes :=
  Utf8.bytes (key.toList.flatMap escape) ++ quote :: colon :: (v.bytes ++ rest)

theorem bytes_memberText (key : String) (v : Json) (rest : Bytes) :
    Utf8.bytes (memberText (key, v)) ++ rest = quote :: memberRest key v rest := by
  have colonByte : Utf8.encodeChar ':' = [colon] := rfl
  simp only [memberText, Utf8.bytes_append, Utf8.bytes_cons, bytes_stringChars, colonByte,
    List.append_assoc, List.cons_append, List.nil_append, memberRest, bytes]

theorem nextMember_first (key : String) (v : Json) (rest : Bytes) :
    nextMember true (Utf8.bytes (memberText (key, v)) ++ rest) =
      .ok (true, memberRest key v rest) := by
  rw [bytes_memberText]
  rfl

theorem nextMember_later (key : String) (v : Json) (rest : Bytes) :
    nextMember false (comma :: (Utf8.bytes (memberText (key, v)) ++ rest)) =
      .ok (true, memberRest key v rest) := by
  rw [bytes_memberText]
  rfl

theorem colonAfter_value (v : Json) (rest : Bytes) :
    colonAfter (colon :: (v.bytes ++ rest)) = .ok (v.bytes ++ rest) :=
  rfl

/-- A slot takes what the reader of its values makes. -/
theorem Reads.slot {σ α : Type} {value : Reader α} {v : Json} {x : α} (reads : Reads value v x)
    {name : String} {required : Bool} {get : σ → Option α} {set : σ → α → σ} {slots : σ} :
    Reads ((FieldReader.slot name required value get set).read slots) v (set slots x) := by
  intro rest ended
  simp only [FieldReader.slot, reads rest ended]
  rfl

namespace Record
variable {σ α : Type} {record : Record σ α}

/-- Some members, and the slots before and after them. -/
inductive Fills (record : Record σ α) : σ → List (String × Json) → σ → Prop where
  | nil (slots : σ) : Fills record slots [] slots
  | cons {slots next last : σ} {key : String} {v : Json} {members : List (String × Json)}
      {field : FieldReader σ} (named : record.fields.find? (·.name == key) = some field)
      (unset : field.isSet slots = false) (reads : Reads (field.read slots) v next)
      (others : Fills record next members last) : Fills record slots ((key, v) :: members) last

theorem Fills.append {slots middle last : σ} {front back : List (String × Json)}
    (first : Fills record slots front middle) (second : Fills record middle back last) :
    Fills record slots (front ++ back) last := by
  induction first with
  | nil slots => exact second
  | cons named unset reads others ih => exact .cons named unset reads (ih second)

theorem membersWithin_closing {slots : σ} (complete : record.missing? slots = none) (first : Bool)
    (rest : Bytes) (fuel : Nat) :
    record.membersWithin (fuel + 1) first slots (closeBrace :: rest) =
      .ok (slots, closeBrace :: rest) := by
  have closing : nextMember first (closeBrace :: rest) = .ok (false, closeBrace :: rest) := rfl
  rw [membersWithin, closing]
  simp only [complete]

/-- One member in front of others. -/
theorem membersWithin_cons {slots next : σ} {key : String} {v : Json} {field : FieldReader σ}
    (named : record.fields.find? (·.name == key) = some field)
    (unset : field.isSet slots = false) (reads : Reads (field.read slots) v next) {fuel : Nat}
    {first : Bool} {text behind : Bytes}
    (follows : nextMember first text = .ok (true, memberRest key v behind))
    (ended : Ended behind) :
    record.membersWithin (fuel + 1) first slots text =
      record.membersWithin fuel false next behind := by
  have taken : record.member key slots (colon :: (v.bytes ++ behind)) = .ok (next, behind) := by
    simp only [member, named, unset, colonAfter_value, reads behind ended]
    rfl
  rw [membersWithin, follows]
  simp only [memberRest, stringBody_eq, taken]

/-- Fuel for every member and for the closing brace is enough. -/
theorem Fills.membersWithin_trailing {slots last : σ} {members : List (String × Json)}
    (fills : Fills record slots members last) (complete : record.missing? last = none)
    (rest : Bytes) (more : Nat) :
    record.membersWithin (more + members.length + 1) false slots
        (Utf8.bytes (trailing memberText members) ++ closeBrace :: rest) =
      .ok (last, closeBrace :: rest) := by
  induction fills with
  | nil slots => exact membersWithin_closing complete false rest _
  | @cons slots next last key v members field named unset reads others ih =>
    have ended := ended_trailing memberText members (.inr rfl) rest
    rw [bytes_trailing_cons,
      membersWithin_cons named unset reads (nextMember_later key v _) ended]
    exact ih complete

theorem Fills.membersWithin_separated {slots last : σ} {members : List (String × Json)}
    (fills : Fills record slots members last) (complete : record.missing? last = none)
    (rest : Bytes) (more : Nat) :
    record.membersWithin (more + members.length + 1) true slots
        (Utf8.bytes (separated memberText members) ++ closeBrace :: rest) =
      .ok (last, closeBrace :: rest) := by
  cases fills with
  | nil => exact membersWithin_closing complete true rest _
  | @cons _ next _ key v members field named unset reads others =>
    have ended := ended_trailing memberText members (.inr rfl) rest
    rw [separated, Utf8.bytes_append, List.append_assoc,
      membersWithin_cons named unset reads (nextMember_first key v _) ended]
    exact others.membersWithin_trailing complete rest more

/-- An object is read when its members fill the record. -/
theorem Fills.reads {last : σ} {members : List (String × Json)}
    (fills : Fills record record.empty members last) (complete : record.missing? last = none) :
    Reads record.reader (.object members) (record.build last) := by
  intro rest ended
  obtain ⟨more, fuel⟩ :=
    Nat.exists_eq_add_of_le' (length_le_separated memberText members closeBrace rest)
  have filled := fills.membersWithin_separated complete rest more
  rw [object_bytes, reader, skipSpace_cons (by decide)]
  simp only [if_true, fuel, filled]
  rfl

end Record

end LinkGate.Json
