import LinkGate.Json.Skip

/-!
# Records

A record type lists its fields; a text may give them as an object, in any order, or as an array, in
the order of the list.  Fields are read into slots, which start empty; `build` makes the record once
every required slot is filled.

A record that is incomplete, or has a key twice or a key it does not know, is a complaint about the
record as a whole: before the place is taken, the record's closing is attempted, so the closing
bracket counts as read if it is next.
-/

set_option autoImplicit false

namespace LinkGate.Json

structure FieldReader (σ : Type) where
  name : String
  required : Bool
  isSet : σ → Bool
  read : σ → Reader σ

def FieldReader.slot {σ α : Type} (name : String) (required : Bool) (value : Reader α)
    (get : σ → Option α) (set : σ → α → σ) : FieldReader σ where
  name := name
  required := required
  isSet slots := (get slots).isSome
  read slots text := (value text).map fun (x, rest) => (set slots x, rest)

structure Record (σ α : Type) where
  name : String
  fields : List (FieldReader σ)
  strict : Bool
  empty : σ
  build : σ → α

/-- Why a record is not read: a fault with its place, or a complaint that has none yet. -/
inductive Halt where
  | fault (fault : Fault)
  | complaint (cause : Cause) (rest : Bytes)
  deriving DecidableEq, Repr

namespace Record

variable {σ α : Type}

def keys (record : Record σ α) : List String :=
  record.fields.map (·.name)

def title (record : Record σ α) : String :=
  s!"struct {record.name}"

def titleWithSize (record : Record σ α) : String :=
  s!"struct {record.name} with {record.fields.length} elements"

def missing? (record : Record σ α) (slots : σ) : Option String :=
  (record.fields.find? fun field => field.required && !field.isSet slots).map (·.name)

def member (record : Record σ α) (key : String) (slots : σ) (rest : Bytes) :
    Except Halt (σ × Bytes) :=
  match record.fields.find? (·.name == key) with
  | none =>
    if record.strict then .error (.complaint (.unknownField key record.keys) rest)
    else
      match colonAfter rest with
      | .error fault => .error (.fault fault)
      | .ok rest =>
        match skipValue rest with
        | .error fault => .error (.fault fault)
        | .ok rest => .ok (slots, rest)
  | some field =>
    if field.isSet slots then .error (.complaint (.duplicateField key) rest)
    else
      match colonAfter rest with
      | .error fault => .error (.fault fault)
      | .ok rest =>
        match field.read slots rest with
        | .error fault => .error (.fault fault)
        | .ok result => .ok result

/-- Reads members up to the closing brace.  One fuel unit is spent per member and one on the
brace. -/
def membersWithin (record : Record σ α) : Nat → Bool → σ → Bytes → Except Halt (σ × Bytes)
  | 0, _, _, _ => .error (.fault ⟨.endOfObject, 0⟩)
  | fuel + 1, first, slots, text =>
    match nextMember first text with
    | .error fault => .error (.fault fault)
    | .ok (false, rest) =>
      match record.missing? slots with
      | some name => .error (.complaint (.missingField name) rest)
      | none => .ok (slots, rest)
    | .ok (true, rest) =>
      match stringBody rest with
      | .error fault => .error (.fault fault)
      | .ok (key, rest) =>
        match record.member key slots rest with
        | .error halt => .error halt
        | .ok (slots, rest) => membersWithin record fuel false slots rest

/-- Reads the fields in order.  Behind the last element only fields that are not required may be
left. -/
def items (record : Record σ α) : List (FieldReader σ) → Nat → σ → Bytes → Except Halt (σ × Bytes)
  | [], _, slots, text => .ok (slots, text)
  | field :: more, index, slots, text =>
    match nextElement (index == 0) text with
    | .error fault => .error (.fault fault)
    | .ok (false, rest) =>
      if field.required then .error (.complaint (.wrongLength index record.titleWithSize) rest)
      else items record more (index + 1) slots rest
    | .ok (true, rest) =>
      match field.read slots rest with
      | .error fault => .error (.fault fault)
      | .ok (slots, rest) => items record more (index + 1) slots rest

/-- What is left when the closing of an object has been attempted. -/
def pastObject (rest : Bytes) : Bytes :=
  match skipSpace rest with
  | [] => []
  | b :: rest => if b = closeBrace then rest else b :: rest

/-- What is left when the closing of an array has been attempted. -/
def pastArray (rest : Bytes) : Bytes :=
  match skipSpace rest with
  | [] => []
  | b :: rest =>
    if b = closeBracket then rest else if b = comma then skipSpace rest else b :: rest

def reader (record : Record σ α) : Reader α := fun text =>
  match skipSpace text with
  | [] => Fault.next .endOfValue []
  | b :: rest =>
    if b = openBrace then
      match record.membersWithin (rest.length + 1) true record.empty rest with
      | .error (.fault fault) => .error fault
      | .error (.complaint cause rest) => Fault.here cause (pastObject rest)
      | .ok (slots, rest) => (closeObject rest).map (record.build slots, ·)
    else if b = openBracket then
      match record.items record.fields 0 record.empty rest with
      | .error (.fault fault) => .error fault
      | .error (.complaint cause rest) => Fault.here cause (pastArray rest)
      | .ok (slots, rest) => (closeArray rest).map (record.build slots, ·)
    else mismatch record.title (b :: rest)

end Record

end LinkGate.Json
