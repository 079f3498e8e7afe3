/-!
# Double-precision numbers

A double is a mantissa below 2^53 times a power of two; signs are kept apart.  `round?` gives the
double nearest to a quotient of naturals, a tie going to the even mantissa, and `ofDecimal?` reads a
significand and a power of ten the quick way: each is rounded to a double first, then they are
multiplied or divided once.
-/

set_option autoImplicit false

namespace LinkGate

/-- The number `mantissa * 2 ^ exponent`. -/
structure Binary64 where
  mantissa : Nat
  exponent : Int
  deriving DecidableEq, Repr

namespace Binary64

def leastExponent : Int := -1074

def greatestExponent : Int := 971

def zero : Binary64 := ⟨0, leastExponent⟩

def isZero (x : Binary64) : Bool := x.mantissa == 0

/-- The quotient to the nearest natural, a tie to the even one. -/
def nearest (numerator denominator : Nat) : Nat :=
  let quotient := numerator / denominator
  let twice := 2 * (numerator % denominator)
  if twice < denominator then quotient
  else if denominator < twice then quotient + 1
  else quotient + quotient % 2

/-- The exponent of the greatest power of two that is not above the quotient. -/
def binaryOrder (numerator denominator : Nat) : Int :=
  let guess : Int := (Nat.log2 numerator : Int) - Nat.log2 denominator
  let low := numerator * Nat.pow 2 (-guess).toNat < denominator * Nat.pow 2 guess.toNat
  if low then guess - 1 else guess

/-- No double is near a quotient that rounds to 2^1024 or more. -/
def round? (numerator denominator : Nat) : Option Binary64 :=
  if numerator = 0 then some zero
  else
    let exponent := max leastExponent (binaryOrder numerator denominator - 52)
    let mantissa :=
      nearest (numerator * Nat.pow 2 (-exponent).toNat) (denominator * Nat.pow 2 exponent.toNat)
    let rounded : Binary64 :=
      if mantissa = Nat.pow 2 53 then ⟨Nat.pow 2 52, exponent + 1⟩ else ⟨mantissa, exponent⟩
    if greatestExponent < rounded.exponent then none else some rounded

def mul? (x y : Binary64) : Option Binary64 :=
  let exponent := x.exponent + y.exponent
  round? (x.mantissa * y.mantissa * Nat.pow 2 exponent.toNat) (Nat.pow 2 (-exponent).toNat)

def div? (x y : Binary64) : Option Binary64 :=
  let exponent := x.exponent - y.exponent
  round? (x.mantissa * Nat.pow 2 exponent.toNat) (y.mantissa * Nat.pow 2 (-exponent).toNat)

def greatestPower : Nat := 308

/-- Multiplies by a power of ten that may be beyond the doubles.  Small powers are reached in
strides of `greatestPower`; two strides turn any double of a 64-bit significand into zero, so three
rounds are enough. -/
def scaleWithin : Nat → Binary64 → Int → Option Binary64
  | 0, x, _ => some x
  | rounds + 1, x, power =>
    if power.natAbs ≤ greatestPower then do
      let scale ← round? (Nat.pow 10 power.natAbs) 1
      if 0 ≤ power then mul? x scale else div? x scale
    else if x.isZero then some x
    else if 0 ≤ power then none
    else do
      let scale ← round? (Nat.pow 10 greatestPower) 1
      let quotient ← div? x scale
      scaleWithin rounds quotient (power + greatestPower)

/-- The double of `significand * 10 ^ power`, if there is one. -/
def ofDecimal? (significand : Nat) (power : Int) : Option Binary64 := do
  scaleWithin 3 (← round? significand 1) power

end Binary64

end LinkGate
