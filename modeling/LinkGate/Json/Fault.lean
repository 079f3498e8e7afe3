import LinkGate.Json.Value
import LinkGate.Text.Utf8

/-!
# Faults of a JSON text

A reader that gives up says why, a `Cause`, and how many bytes it had not yet consumed at the place
it blames, a `Fault`.  Two places are in use: what has been consumed so far (`Fault.here`), and one
byte further, so that the offending byte counts (`Fault.next`).  `Fault.locate` turns the place into
a line and a column of the whole text.
-/

set_option autoImplicit false

namespace LinkGate.Json

/-- The value that stands where another was expected. -/
inductive Found where
  | null
  | bool (value : Bool)
  | integer (value : Int)
  | float (negative : Bool) (magnitude : Binary64)
  | string (value : String)
  | array
  | object
  deriving DecidableEq, Repr

def Found.text : Found → String
  | null => "null"
  | bool value => s!"boolean `{value}`"
  | integer value => s!"integer `{value}`"
  | float negative magnitude => s!"floating point `{floatLayout.text negative magnitude}`"
  | string value => s!"string {quoted value}"
  | array => "sequence"
  | object => "map"

inductive Cause where
  | endOfValue
  | endOfArray
  | endOfObject
  | endOfString
  | valueExpected
  | colonExpected
  | arrayCommaExpected
  | objectCommaExpected
  | literalExpected
  | keyNotString
  | trailingComma
  | trailingCharacters
  | invalidNumber
  | numberOutOfRange
  | invalidEscape
  | loneSurrogate
  | surrogateNotPaired
  | invalidText
  | controlCharacter
  | wrongType (found : Found) (expected : String)
  | wrongInteger (value : Int) (expected : String)
  | wrongLength (length : Nat) (expected : String)
  | missingField (name : String)
  | duplicateField (name : String)
  | unknownField (name : String) (known : List String)
  | unknownVariant (name : String) (known : List String)
  deriving DecidableEq, Repr

def choices (names : List String) : String :=
  let shown := names.map fun name => s!"`{name}`"
  match shown with
  | [] => "there are no fields"
  | [a] => s!"expected {a}"
  | [a, b] => s!"expected {a} or {b}"
  | _ => "expected one of " ++ String.intercalate ", " shown

def Cause.text : Cause → String
  | endOfValue => "EOF while parsing a value"
  | endOfArray => "EOF while parsing a list"
  | endOfObject => "EOF while parsing an object"
  | endOfString => "EOF while parsing a string"
  | valueExpected => "expected value"
  | colonExpected => "expected `:`"
  | arrayCommaExpected => "expected `,` or `]`"
  | objectCommaExpected => "expected `,` or `\x7d`"
  | literalExpected => "expected ident"
  | keyNotString => "key must be a string"
  | trailingComma => "trailing comma"
  | trailingCharacters => "trailing characters"
  | invalidNumber => "invalid number"
  | numberOutOfRange => "number out of range"
  | invalidEscape => "invalid escape"
  | loneSurrogate => "lone leading surrogate in hex escape"
  | surrogateNotPaired => "unexpected end of hex escape"
  | invalidText => "invalid unicode code point"
  | controlCharacter => "control character (\\u0000-\\u001F) found while parsing a string"
  | wrongType found expected => s!"invalid type: {found.text}, expected {expected}"
  | wrongInteger value expected => s!"invalid value: integer `{value}`, expected {expected}"
  | wrongLength length expected => s!"invalid length {length}, expected {expected}"
  | missingField name => s!"missing field `{name}`"
  | duplicateField name => s!"duplicate field `{name}`"
  | unknownField name known => s!"unknown field `{name}`, {choices known}"
  | unknownVariant name known => s!"unknown variant `{name}`, {choices known}"

/-- A cause, and the number of bytes after the place that is blamed for it. -/
structure Fault where
  cause : Cause
  unread : Nat
  deriving DecidableEq, Repr

namespace Fault

/-- Blames the end of what has been consumed. -/
def here {α : Type} (cause : Cause) (rest : Bytes) : Except Fault α :=
  .error ⟨cause, rest.length⟩

/-- Blames the next byte, or the end of the text where there is none. -/
def next {α : Type} (cause : Cause) (rest : Bytes) : Except Fault α :=
  .error ⟨cause, rest.length - 1⟩

end Fault

/-- A fault with its place: lines count from one, columns are the bytes since the line began. -/
structure ReadError where
  cause : Cause
  line : Nat
  column : Nat
  deriving DecidableEq, Repr

def ReadError.message (e : ReadError) : String :=
  s!"{e.cause.text} at line {e.line} column {e.column}"

def newline : UInt8 := 0x0A

def Fault.locate (fault : Fault) (text : Bytes) : ReadError :=
  let before := text.take (text.length - fault.unread)
  { cause := fault.cause
    line := 1 + before.count newline
    column := (before.reverse.takeWhile (· != newline)).length }

end LinkGate.Json
