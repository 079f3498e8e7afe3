import LinkGate.Json.Reader

/-!
# Skipping a value

A record that is open to further keys passes over their values.  What is passed over must still be
well-formed, but numbers may be of any size, surrogates need not be paired, and arrays and objects
may be nested as deep as they like.
-/

set_option autoImplicit false

namespace LinkGate.Json

def skipEscape : Bytes → Except Fault Bytes
  | [] => Fault.here .endOfString []
  | b :: rest =>
    if b = letter 'u' then (hexUnit rest).map (·.2) else (unescape (b :: rest)).map (·.2)

def skipStringWithin : Nat → Bytes → Except Fault Bytes
  | 0, _ => Fault.here .endOfString []
  | _ + 1, [] => Fault.here .endOfString []
  | fuel + 1, b :: rest =>
    if b = quote then .ok rest
    else if b = backslash then
      match skipEscape rest with
      | .error fault => .error fault
      | .ok rest => skipStringWithin fuel rest
    else if b < 0x20 then Fault.here .controlCharacter rest
    else skipStringWithin fuel rest

def skipString (text : Bytes) : Except Fault Bytes :=
  skipStringWithin text.length text

def skipElementsWithin (skip : Bytes → Except Fault Bytes) :
    Nat → Bool → Bytes → Except Fault Bytes
  | 0, _, _ => Fault.next .endOfArray []
  | fuel + 1, first, text =>
    match nextElement first text with
    | .error fault => .error fault
    | .ok (false, rest) => closeArray rest
    | .ok (true, rest) =>
      match skip rest with
      | .error fault => .error fault
      | .ok rest => skipElementsWithin skip fuel false rest

/-- Whether a member follows, its opening quote taken.  Where none follows, the closing brace is
next. -/
def nextMember (first : Bool) (text : Bytes) : Except Fault (Bool × Bytes) :=
  let key : Bytes → Except Fault (Bool × Bytes)
    | [] => Fault.next .endOfValue []
    | b :: rest =>
      if b = quote then .ok (true, rest)
      else if b = closeBrace then Fault.next .trailingComma (b :: rest)
      else Fault.next .keyNotString (b :: rest)
  match skipSpace text with
  | [] => Fault.next .endOfObject []
  | b :: rest =>
    if b = closeBrace then .ok (false, b :: rest)
    else if first then key (b :: rest)
    else if b = comma then key (skipSpace rest)
    else Fault.next .objectCommaExpected (b :: rest)

def closeObject (text : Bytes) : Except Fault Bytes :=
  match skipSpace text with
  | [] => Fault.next .endOfObject []
  | b :: rest =>
    if b = closeBrace then .ok rest
    else if b = comma then Fault.next .trailingComma (b :: rest)
    else Fault.next .trailingCharacters (b :: rest)

def skipMembersWithin (skip : Bytes → Except Fault Bytes) :
    Nat → Bool → Bytes → Except Fault Bytes
  | 0, _, _ => Fault.next .endOfObject []
  | fuel + 1, first, text =>
    match nextMember first text with
    | .error fault => .error fault
    | .ok (false, rest) => closeObject rest
    | .ok (true, rest) => do
      let rest ← skipString rest
      let rest ← colonAfter rest
      let rest ← skip rest
      skipMembersWithin skip fuel false rest

def skipScalar : Bytes → Except Fault Bytes
  | [] => Fault.next .endOfValue []
  | b :: rest =>
    if b = letter 'n' then letters ['u', 'l', 'l'] rest
    else if b = letter 't' then letters ['r', 'u', 'e'] rest
    else if b = letter 'f' then letters ['a', 'l', 's', 'e'] rest
    else if b = minus ∨ isDigit b then (scanNumber (b :: rest)).map (·.2)
    else if b = quote then skipString rest
    else Fault.next .valueExpected (b :: rest)

/-- One fuel unit is spent per level of nesting, and each level takes a bracket. -/
def skipValueWithin : Nat → Bytes → Except Fault Bytes
  | 0, _ => Fault.next .endOfValue []
  | fuel + 1, text =>
    match skipSpace text with
    | b :: rest =>
      if b = openBracket then
        skipElementsWithin (skipValueWithin fuel) (rest.length + 1) true rest
      else if b = openBrace then
        skipMembersWithin (skipValueWithin fuel) (rest.length + 1) true rest
      else skipScalar (b :: rest)
    | [] => skipScalar []

def skipValue (text : Bytes) : Except Fault Bytes :=
  skipValueWithin (text.length + 1) text

end LinkGate.Json
