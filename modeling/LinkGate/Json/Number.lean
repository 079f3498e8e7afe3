import LinkGate.Json.Token

/-!
# Numbers in a JSON text

`NumberText` is a number as it is written; `scanNumber` takes one off the front of a text.  A whole
number that fits into 64 bits is an `integer`; every other one is a double.  Digits that no longer
fit into a 64-bit significand only count as powers of ten.
-/

set_option autoImplicit false

namespace LinkGate.Json

structure NumberText where
  negative : Bool
  whole : List Nat
  fraction : List Nat
  exponent : Option (Bool × List Nat)
  deriving DecidableEq, Repr

def isDigit (b : UInt8) : Bool :=
  0x30 ≤ b && b ≤ 0x39

def digits (text : Bytes) : List Nat × Bytes :=
  ((text.takeWhile isDigit).map fun b => b.toNat - 0x30, text.dropWhile isDigit)

/-- Digits of which the first must be there; a byte that is none is consumed. -/
def someDigits : Bytes → Except Fault (List Nat × Bytes)
  | [] => Fault.here .endOfValue []
  | b :: rest => if isDigit b then .ok (digits (b :: rest)) else Fault.here .invalidNumber rest

/-- A leading zero stands alone. -/
def wholePart (text : Bytes) : Except Fault (List Nat × Bytes) :=
  match someDigits text with
  | .error fault => .error fault
  | .ok (0 :: _ :: _, _) => Fault.next .invalidNumber (text.drop 1)
  | .ok result => .ok result

def fractionPart : Bytes → Except Fault (List Nat × Bytes)
  | [] => .ok ([], [])
  | b :: rest =>
    if b = point then
      match digits rest with
      | ([], []) => Fault.next .endOfValue []
      | ([], rest) => Fault.next .invalidNumber rest
      | result => .ok result
    else .ok ([], b :: rest)

def exponentSign : Bytes → Bool × Bytes
  | [] => (false, [])
  | b :: rest =>
    if b = minus then (true, rest) else if b = plus then (false, rest) else (false, b :: rest)

def exponentPart : Bytes → Except Fault (Option (Bool × List Nat) × Bytes)
  | [] => .ok (none, [])
  | b :: rest =>
    if b = letter 'e' ∨ b = letter 'E' then
      let (negative, rest) := exponentSign rest
      match someDigits rest with
      | .error fault => .error fault
      | .ok (digits, rest) => .ok (some (negative, digits), rest)
    else .ok (none, b :: rest)

def scanNumber (text : Bytes) : Except Fault (NumberText × Bytes) := do
  let (negative, text) := if text.head? = some minus then (true, text.drop 1) else (false, text)
  let (whole, text) ← wholePart text
  let (fraction, text) ← fractionPart text
  let (exponent, text) ← exponentPart text
  return (⟨negative, whole, fraction, exponent⟩, text)

inductive Number where
  | integer (value : Int)
  | float (negative : Bool) (magnitude : Binary64)
  deriving DecidableEq, Repr

def Number.found : Number → Found
  | integer value => .integer value
  | float negative magnitude => .float negative magnitude

/-- Adds digits to `value` while it stays below `bound`.  Returns also how many were added. -/
def gather (bound : Nat) : Nat → List Nat → Nat × Nat
  | value, [] => (value, 0)
  | value, d :: rest =>
    if value * 10 + d < bound then
      let (total, count) := gather bound (value * 10 + d) rest
      (total, count + 1)
    else (value, 0)

namespace NumberText

/-- The significand: the value of the digits that fit into 64 bits, and the power of ten that the
digits leave. -/
def significand (n : NumberText) : Nat × Int :=
  let (whole, kept) := gather (Nat.pow 2 64) 0 n.whole
  let (value, added) := gather (Nat.pow 2 64) whole n.fraction
  (value, ((n.whole.length - kept : Nat) : Int) - added)

/-- The integer that is written, if it has neither fraction nor exponent and fits into 64 bits.
A minus sign in front of zero makes a double. -/
def integer? (n : NumberText) : Option Int :=
  if n.fraction.isEmpty ∧ n.exponent.isNone then
    match n.significand with
    | (value, 0) =>
      if n.negative then
        if 0 < value ∧ value ≤ Nat.pow 2 63 then some (-(value : Int)) else none
      else some value
    | _ => none
  else none

/-- The exponent, or how many of its digits stand behind the one that takes it beyond 31 bits. -/
def power (n : NumberText) : Except Nat Int :=
  match n.exponent with
  | none => .ok 0
  | some (negative, digits) =>
    let (value, kept) := gather (Nat.pow 2 31) 0 digits
    if kept = digits.length then .ok (if negative then -(value : Int) else value)
    else .error (digits.length - kept - 1)

/-- The number that is written.  Where there is none, the number of digits behind the place where
this shows. -/
def value (n : NumberText) : Except Nat Number :=
  match n.integer? with
  | some value => .ok (.integer value)
  | none =>
    let (significand, power) := n.significand
    match n.power with
    | .error unread =>
      if significand ≠ 0 ∧ (n.exponent.map (·.1)) = some false then .error unread
      else .ok (.float n.negative Binary64.zero)
    | .ok exponent =>
      match Binary64.ofDecimal? significand (power + exponent) with
      | some magnitude => .ok (.float n.negative magnitude)
      | none => .error 0

end NumberText

def number (text : Bytes) : Except Fault (Number × Bytes) :=
  match scanNumber text with
  | .error fault => .error fault
  | .ok (written, rest) =>
    match written.value with
    | .ok value => .ok (value, rest)
    | .error unread => .error ⟨.numberOutOfRange, rest.length + unread⟩

end LinkGate.Json
