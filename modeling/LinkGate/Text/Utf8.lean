/-!
# UTF-8

Text is a sequence of characters, files and streams are sequences of bytes.  `encode` writes
characters as bytes, `step` takes one character off the front of some bytes, and two readers are
built from it: `decode?` accepts well-formed bytes only, `decodeLossy` puts U+FFFD in place of every
longest run that no further byte could complete.  `soundPrefix` counts the bytes in front of the
first such run.
-/

set_option autoImplicit false

namespace LinkGate

abbrev Bytes := List UInt8

namespace Utf8

/-- The one to four bytes of a character: the value in groups of six bits, the lead byte telling how
many groups follow it. -/
def encodeChar (c : Char) : Bytes :=
  let n := c.toNat
  if n < 0x80 then [UInt8.ofNat n]
  else if n < 0x800 then [UInt8.ofNat (0xC0 + n / 64), UInt8.ofNat (0x80 + n % 64)]
  else if n < 0x10000 then
    [UInt8.ofNat (0xE0 + n / 4096), UInt8.ofNat (0x80 + n / 64 % 64), UInt8.ofNat (0x80 + n % 64)]
  else
    [UInt8.ofNat (0xF0 + n / 262144), UInt8.ofNat (0x80 + n / 4096 % 64),
      UInt8.ofNat (0x80 + n / 64 % 64), UInt8.ofNat (0x80 + n % 64)]

def encode (s : String) : Bytes :=
  s.toList.flatMap encodeChar

inductive Step where
  | ended
  | char (c : Char) (rest : Bytes)
  /-- The bytes before `rest` begin no character, whatever follows them. -/
  | broken (rest : Bytes)

/-- Reads `count` continuation bytes behind a lead byte.  Only the first of them is held to
`low`..`high`: these bounds shut out overlong forms, surrogates and values above U+10FFFF. -/
def continuation : Nat → Nat → UInt8 → UInt8 → Bytes → Step
  | 0, value, _, _, rest => .char (Char.ofNat value) rest
  | _ + 1, _, _, _, [] => .broken []
  | count + 1, value, low, high, b :: rest =>
    if low ≤ b ∧ b ≤ high then
      continuation count (value * 64 + (b.toNat - 0x80)) 0x80 0xBF rest
    else .broken (b :: rest)

def step : Bytes → Step
  | [] => .ended
  | a :: rest =>
    if a < 0x80 then .char (Char.ofNat a.toNat) rest
    else if a < 0xC2 then .broken rest
    else if a < 0xE0 then continuation 1 (a.toNat - 0xC0) 0x80 0xBF rest
    else if a = 0xE0 then continuation 2 0 0xA0 0xBF rest
    else if a = 0xED then continuation 2 0x0D 0x80 0x9F rest
    else if a < 0xF0 then continuation 2 (a.toNat - 0xE0) 0x80 0xBF rest
    else if a = 0xF0 then continuation 3 0 0x90 0xBF rest
    else if a < 0xF4 then continuation 3 (a.toNat - 0xF0) 0x80 0xBF rest
    else if a = 0xF4 then continuation 3 4 0x80 0x8F rest
    else .broken rest

/-- One fuel unit is spent per character, so the number of bytes is enough. -/
def decodeWithin : Nat → Bytes → Option (List Char)
  | 0, bytes => if bytes.isEmpty then some [] else none
  | fuel + 1, bytes =>
    match step bytes with
    | .ended => some []
    | .char c rest => (decodeWithin fuel rest).map (c :: ·)
    | .broken _ => none

def decode? (bytes : Bytes) : Option String :=
  (decodeWithin bytes.length bytes).map String.ofList

def decodeLossyWithin : Nat → Bytes → List Char
  | 0, _ => []
  | fuel + 1, bytes =>
    match step bytes with
    | .ended => []
    | .char c rest => c :: decodeLossyWithin fuel rest
    | .broken rest => '\uFFFD' :: decodeLossyWithin fuel rest

/-- The text of any bytes; what is not well-formed shows as U+FFFD. -/
def decodeLossy (bytes : Bytes) : String :=
  String.ofList (decodeLossyWithin bytes.length bytes)

def soundPrefixWithin : Nat → Bytes → Nat
  | 0, _ => 0
  | fuel + 1, bytes =>
    match step bytes with
    | .char _ rest => (bytes.length - rest.length) + soundPrefixWithin fuel rest
    | .ended | .broken _ => 0

/-- The number of bytes in front of the first one that begins no character. -/
def soundPrefix (bytes : Bytes) : Nat :=
  soundPrefixWithin bytes.length bytes

end Utf8

end LinkGate
