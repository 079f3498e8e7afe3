import LinkGate.Json.Fault

/-!
# Tokens of a JSON text

Blanks, the letters of a literal, and strings.  A string is scanned to its closing quote first:
`scanWithin` resolves the escapes and leaves all other bytes as they are.  Only then are the bytes
read as characters, so of two faults in one string the one in its escapes or its end wins over
ill-formed bytes.
-/

set_option autoImplicit false

namespace LinkGate.Json

def quote : UInt8 := 0x22
def plus : UInt8 := 0x2B
def comma : UInt8 := 0x2C
def minus : UInt8 := 0x2D
def point : UInt8 := 0x2E
def slash : UInt8 := 0x2F
def zero : UInt8 := 0x30
def colon : UInt8 := 0x3A
def openBracket : UInt8 := 0x5B
def backslash : UInt8 := 0x5C
def closeBracket : UInt8 := 0x5D
def openBrace : UInt8 := 0x7B
def closeBrace : UInt8 := 0x7D

def letter (c : Char) : UInt8 :=
  UInt8.ofNat c.toNat

def isSpace (b : UInt8) : Bool :=
  b == 0x20 || b == 0x09 || b == 0x0A || b == 0x0D

def skipSpace (text : Bytes) : Bytes :=
  text.dropWhile isSpace

/-- Reads the letters of a literal.  A wrong letter is consumed. -/
def letters : List Char → Bytes → Except Fault Bytes
  | [], text => .ok text
  | _ :: _, [] => Fault.here .endOfValue []
  | c :: more, b :: rest =>
    if b = letter c then letters more rest else Fault.here .literalExpected rest

def hexValue? (b : UInt8) : Option Nat :=
  if 0x30 ≤ b ∧ b ≤ 0x39 then some (b.toNat - 0x30)
  else if 0x41 ≤ b ∧ b ≤ 0x46 then some (b.toNat - 0x41 + 10)
  else if 0x61 ≤ b ∧ b ≤ 0x66 then some (b.toNat - 0x61 + 10)
  else none

/-- Four hexadecimal digits, all of which are consumed whatever they are. -/
def hexUnit : Bytes → Except Fault (Nat × Bytes)
  | a :: b :: c :: d :: rest =>
    match hexValue? a, hexValue? b, hexValue? c, hexValue? d with
    | some a, some b, some c, some d => .ok (((a * 16 + b) * 16 + c) * 16 + d, rest)
    | _, _, _, _ => Fault.here .invalidEscape rest
  | _ => Fault.here .endOfString []

def isHighSurrogate (unit : Nat) : Bool := 0xD800 ≤ unit && unit < 0xDC00

def isLowSurrogate (unit : Nat) : Bool := 0xDC00 ≤ unit && unit < 0xE000

/-- The second half of a surrogate pair must follow the first at once. -/
def lowSurrogate : Bytes → Except Fault (Nat × Bytes)
  | [] => Fault.here .endOfString []
  | b :: rest =>
    if b = backslash then
      match rest with
      | [] => Fault.here .endOfString []
      | u :: rest =>
        if u = letter 'u' then
          match hexUnit rest with
          | .error fault => .error fault
          | .ok (unit, rest) =>
            if isLowSurrogate unit then .ok (unit, rest) else Fault.here .loneSurrogate rest
        else Fault.here .surrogateNotPaired rest
    else Fault.here .surrogateNotPaired rest

def codePoint (text : Bytes) : Except Fault (Char × Bytes) :=
  match hexUnit text with
  | .error fault => .error fault
  | .ok (unit, rest) =>
    if isLowSurrogate unit then Fault.here .loneSurrogate rest
    else if isHighSurrogate unit then
      match lowSurrogate rest with
      | .error fault => .error fault
      | .ok (low, rest) =>
        .ok (Char.ofNat (0x10000 + (unit - 0xD800) * 0x400 + (low - 0xDC00)), rest)
    else .ok (Char.ofNat unit, rest)

def unescape : Bytes → Except Fault (Char × Bytes)
  | [] => Fault.here .endOfString []
  | b :: rest =>
    if b = quote then .ok ('"', rest)
    else if b = backslash then .ok ('\\', rest)
    else if b = slash then .ok ('/', rest)
    else if b = letter 'b' then .ok ('\x08', rest)
    else if b = letter 'f' then .ok ('\x0c', rest)
    else if b = letter 'n' then .ok ('\n', rest)
    else if b = letter 'r' then .ok ('\r', rest)
    else if b = letter 't' then .ok ('\t', rest)
    else if b = letter 'u' then codePoint rest
    else Fault.here .invalidEscape rest

/-- The bytes of a string up to its closing quote, and what follows the quote.  One fuel unit is
spent per byte or escape. -/
def scanWithin : Nat → Bytes → Except Fault (Bytes × Bytes)
  | 0, _ => Fault.here .endOfString []
  | _ + 1, [] => Fault.here .endOfString []
  | fuel + 1, b :: rest =>
    if b = quote then .ok ([], rest)
    else if b = backslash then
      match unescape rest with
      | .error fault => .error fault
      | .ok (c, rest) =>
        match scanWithin fuel rest with
        | .error fault => .error fault
        | .ok (bytes, rest) => .ok (Utf8.encodeChar c ++ bytes, rest)
    else if b < 0x20 then Fault.here .controlCharacter rest
    else
      match scanWithin fuel rest with
      | .error fault => .error fault
      | .ok (bytes, rest) => .ok (b :: bytes, rest)

/-- The string behind an opening quote.  The place of an ill-formed byte is counted back from the
closing quote, in bytes of the resolved string, and one byte further: where escapes stand behind it,
the place lies behind the byte itself. -/
def stringBody (text : Bytes) : Except Fault (String × Bytes) :=
  match scanWithin text.length text with
  | .error fault => .error fault
  | .ok (bytes, rest) =>
    match Utf8.decode? bytes with
    | some s => .ok (s, rest)
    | none => .error ⟨.invalidText, rest.length + (bytes.length - Utf8.soundPrefix bytes)⟩

end LinkGate.Json
