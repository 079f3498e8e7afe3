import LinkGate.Json.Number

/-!
# Typed readers

A reader takes one value of its type off the front of a text.  Nothing is read into a general value
first, so faults surface in the order of the text: a value of the wrong type is refused where it
stands, before anything behind it is looked at.  A scalar of the wrong type is blamed behind itself,
an array or object in front of its bracket.
-/

set_option autoImplicit false

namespace LinkGate.Json

abbrev Reader (α : Type) := Bytes → Except Fault (α × Bytes)

def mismatch {α : Type} (expected : String) : Bytes → Except Fault α
  | [] => Fault.next .endOfValue []
  | b :: rest =>
    let literal (word : List Char) (found : Found) : Except Fault α :=
      match letters word rest with
      | .error fault => .error fault
      | .ok rest => Fault.here (.wrongType found expected) rest
    if b = letter 'n' then literal ['u', 'l', 'l'] .null
    else if b = letter 't' then literal ['r', 'u', 'e'] (.bool true)
    else if b = letter 'f' then literal ['a', 'l', 's', 'e'] (.bool false)
    else if b = minus ∨ isDigit b then
      match number (b :: rest) with
      | .error fault => .error fault
      | .ok (n, rest) => Fault.here (.wrongType n.found expected) rest
    else if b = quote then
      match stringBody rest with
      | .error fault => .error fault
      | .ok (s, rest) => Fault.here (.wrongType (.string s) expected) rest
    else if b = openBracket then Fault.here (.wrongType .array expected) (b :: rest)
    else if b = openBrace then Fault.here (.wrongType .object expected) (b :: rest)
    else Fault.next .valueExpected (b :: rest)

namespace Reader

def string : Reader String := fun text =>
  match skipSpace text with
  | [] => Fault.next .endOfValue []
  | b :: rest => if b = quote then stringBody rest else mismatch "a string" (b :: rest)

def boolean : Reader Bool := fun text =>
  match skipSpace text with
  | [] => Fault.next .endOfValue []
  | b :: rest =>
    if b = letter 't' then (letters ['r', 'u', 'e'] rest).map (true, ·)
    else if b = letter 'f' then (letters ['a', 'l', 's', 'e'] rest).map (false, ·)
    else mismatch "a boolean" (b :: rest)

/-- The value that means nothing but its own presence. -/
def unit : Reader Unit := fun text =>
  match skipSpace text with
  | [] => Fault.next .endOfValue []
  | b :: rest =>
    if b = letter 'n' then (letters ['u', 'l', 'l'] rest).map ((), ·)
    else mismatch "unit" (b :: rest)

/-- A whole number from `low` to `high`, called `kind` in messages. -/
def integerWithin (kind : String) (low high : Int) : Reader Int := fun text =>
  match skipSpace text with
  | [] => Fault.next .endOfValue []
  | b :: rest =>
    if b = minus ∨ isDigit b then
      match number (b :: rest) with
      | .error fault => .error fault
      | .ok (.integer n, rest) =>
        if low ≤ n ∧ n ≤ high then .ok (n, rest) else Fault.here (.wrongInteger n kind) rest
      | .ok (.float negative magnitude, rest) =>
        Fault.here (.wrongType (.float negative magnitude) kind) rest
    else mismatch kind (b :: rest)

def uint32 : Reader UInt32 := fun text =>
  match integerWithin "u32" 0 4294967295 text with
  | .error fault => .error fault
  | .ok (n, rest) => .ok (UInt32.ofNat n.toNat, rest)

def int32 : Reader Int :=
  integerWithin "i32" (-2147483648) 2147483647

/-- `null` stands for no value. -/
def optional {α : Type} (value : Reader α) : Reader (Option α) := fun text =>
  match skipSpace text with
  | [] => Fault.next .endOfValue []
  | b :: rest =>
    if b = letter 'n' then (letters ['u', 'l', 'l'] rest).map (none, ·)
    else (value (b :: rest)).map fun (x, rest) => (some x, rest)

end Reader

/-- Whether an element follows, the comma in front of it taken.  Where none follows, the closing
bracket is next. -/
def nextElement (first : Bool) (text : Bytes) : Except Fault (Bool × Bytes) :=
  match skipSpace text with
  | [] => Fault.next .endOfArray []
  | b :: rest =>
    if b = closeBracket then .ok (false, b :: rest)
    else if first then .ok (true, b :: rest)
    else if b = comma then
      match skipSpace rest with
      | [] => Fault.next .endOfValue []
      | c :: rest =>
        if c = closeBracket then Fault.next .trailingComma (c :: rest) else .ok (true, c :: rest)
    else Fault.next .arrayCommaExpected (b :: rest)

def closeArray (text : Bytes) : Except Fault Bytes :=
  match skipSpace text with
  | [] => Fault.next .endOfArray []
  | b :: rest =>
    if b = closeBracket then .ok rest
    else if b = comma then
      match skipSpace rest with
      | [] => Fault.next .trailingCharacters []
      | c :: rest =>
        if c = closeBracket then Fault.next .trailingComma (c :: rest)
        else Fault.next .trailingCharacters (c :: rest)
    else Fault.next .trailingCharacters (b :: rest)

/-- One fuel unit is spent per element and one on the closing bracket. -/
def elementsWithin {α : Type} (element : Reader α) :
    Nat → Bool → Bytes → Except Fault (List α × Bytes)
  | 0, _, _ => Fault.next .endOfArray []
  | fuel + 1, first, text =>
    match nextElement first text with
    | .error fault => .error fault
    | .ok (false, rest) => .ok ([], rest)
    | .ok (true, rest) =>
      match element rest with
      | .error fault => .error fault
      | .ok (x, rest) =>
        match elementsWithin element fuel false rest with
        | .error fault => .error fault
        | .ok (xs, rest) => .ok (x :: xs, rest)

def Reader.list {α : Type} (element : Reader α) : Reader (List α) := fun text =>
  match skipSpace text with
  | [] => Fault.next .endOfValue []
  | b :: rest =>
    if b = openBracket then
      match elementsWithin element (rest.length + 1) true rest with
      | .error fault => .error fault
      | .ok (xs, rest) => (closeArray rest).map (xs, ·)
    else mismatch "a sequence" (b :: rest)

def colonAfter (text : Bytes) : Except Fault Bytes :=
  match skipSpace text with
  | [] => Fault.next .endOfObject []
  | b :: rest => if b = colon then .ok rest else Fault.next .colonExpected (b :: rest)

def onlyKey (text : Bytes) : Except Fault (String × Bytes) :=
  match skipSpace text with
  | [] => Fault.next .endOfObject []
  | b :: rest =>
    if b = quote then stringBody rest
    else if b = closeBrace then Fault.next .valueExpected (b :: rest)
    else Fault.next .keyNotString (b :: rest)

/-- One of some names, written as a string or as the only key of an object that holds `null`. -/
def Reader.variant {α : Type} (names : List (String × α)) : Reader α := fun text =>
  let lookUp (name : String) (rest : Bytes) : Except Fault (α × Bytes) :=
    match names.lookup name with
    | some value => .ok (value, rest)
    | none => Fault.here (.unknownVariant name (names.map (·.1))) rest
  match skipSpace text with
  | [] => Fault.next .endOfValue []
  | b :: rest =>
    if b = quote then do
      let (name, rest) ← stringBody rest
      lookUp name rest
    else if b = openBrace then do
      let (name, rest) ← onlyKey rest
      let (value, rest) ← lookUp name rest
      let ((), rest) ← unit (← colonAfter rest)
      match skipSpace rest with
      | [] => Fault.here .endOfObject []
      | c :: rest =>
        if c = closeBrace then .ok (value, rest) else Fault.here .valueExpected (c :: rest)
    else Fault.next .valueExpected (b :: rest)

/-- Reads a whole text: after the value nothing but blanks may follow. -/
def Reader.run {α : Type} (reader : Reader α) (text : Bytes) : Except ReadError α :=
  let result : Except Fault α :=
    match reader text with
    | .error fault => .error fault
    | .ok (x, rest) =>
      match skipSpace rest with
      | [] => .ok x
      | b :: rest => Fault.next .trailingCharacters (b :: rest)
  result.mapError (Fault.locate · text)

end LinkGate.Json
