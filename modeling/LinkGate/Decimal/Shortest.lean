import LinkGate.Decimal.Binary64

/-!
# Shortest decimals

The text of a double has the fewest digits that read back to it, and of those the nearest.  `select`
finds them in exact arithmetic: it tries one digit, two digits and so on, looking each time at the
two neighbours of the value on that decimal grid.  `Layout` holds what a format decides about how
the digits are shown.
-/

set_option autoImplicit false

namespace LinkGate.Binary64

/-- The number `digits * 10 ^ power`. -/
structure Decimal where
  digits : Nat
  power : Int
  deriving DecidableEq, Repr

/-- The reals that read back to a double, in quarters of its last binary place: from `low` to `high`
over `unit`, the ends included when the mantissa is even. -/
structure Interval where
  low : Nat
  value : Nat
  high : Nat
  unit : Nat
  closed : Bool

def interval (x : Binary64) : Interval :=
  let scale := Nat.pow 2 (x.exponent - 2).toNat
  let below := if x.mantissa = Nat.pow 2 52 ∧ leastExponent < x.exponent then 1 else 2
  { low := (4 * x.mantissa - below) * scale
    value := 4 * x.mantissa * scale
    high := (4 * x.mantissa + 2) * scale
    unit := Nat.pow 2 (2 - x.exponent).toNat
    closed := x.mantissa % 2 == 0 }

def Interval.holds (i : Interval) (d : Decimal) : Bool :=
  let shown := d.digits * Nat.pow 10 d.power.toNat * i.unit
  let scale := Nat.pow 10 (-d.power).toNat
  if i.closed then i.low * scale ≤ shown && shown ≤ i.high * scale
  else i.low * scale < shown && shown < i.high * scale

def decimalLength (n : Nat) : Nat :=
  (Nat.toDigits 10 n).length

/-- The power of ten of the leading digit of the interval's value. -/
def Interval.decimalOrder (i : Interval) : Int :=
  if i.unit ≤ i.value then (decimalLength (i.value / i.unit) : Int) - 1
  else -(decimalLength ((i.unit - 1) / i.value) : Int)

/-- The neighbours of the value on the grid `10 ^ power`, the nearer first, or on a tie the even. -/
def Interval.neighbours (i : Interval) (power : Int) : List Decimal :=
  let numerator := i.value * Nat.pow 10 (-power).toNat
  let denominator := i.unit * Nat.pow 10 power.toNat
  let below := numerator / denominator
  if nearest numerator denominator = below then [⟨below, power⟩, ⟨below + 1, power⟩]
  else [⟨below + 1, power⟩, ⟨below, power⟩]

def selectFrom (i : Interval) : Nat → Nat → Decimal
  | 0, places => ⟨i.value / i.unit, places⟩
  | rounds + 1, places =>
    match (i.neighbours (i.decimalOrder - places)).find? i.holds with
    | some d => d
    | none => selectFrom i rounds (places + 1)

/-- Seventeen digits always read back. -/
def select (x : Binary64) : Decimal :=
  selectFrom x.interval 17 0

/-- How a format shows digits: the decimal point is put into the digits while its place is above
`least` and at most `greatest`; beyond these a power of ten is written. -/
structure Layout where
  least : Int
  greatest : Int

def pointed (whole fraction : List Char) : List Char :=
  whole ++ '.' :: (if fraction.isEmpty then ['0'] else fraction)

def powerText (power : Int) : List Char :=
  'e' :: (if power < 0 then '-' else '+') :: Nat.toDigits 10 power.natAbs

def Layout.decimalText (layout : Layout) (d : Decimal) : List Char :=
  let digits := (Nat.toDigits 10 d.digits).reverse.dropWhile (· == '0') |>.reverse
  let point : Int := decimalLength d.digits + d.power
  if layout.least < point ∧ point ≤ layout.greatest then
    if point ≤ 0 then pointed ['0'] (List.replicate (-point).toNat '0' ++ digits)
    else
      let padded := digits ++ List.replicate (point.toNat - digits.length) '0'
      pointed (padded.take point.toNat) (padded.drop point.toNat)
  else
    match digits with
    | [] => ['0']
    | first :: [] => first :: powerText (point - 1)
    | first :: more => pointed [first] more ++ powerText (point - 1)

def Layout.chars (layout : Layout) (negative : Bool) (x : Binary64) : List Char :=
  let sign := if negative then ['-'] else []
  sign ++ if x.isZero then pointed ['0'] [] else layout.decimalText x.select

def Layout.text (layout : Layout) (negative : Bool) (x : Binary64) : String :=
  String.ofList (layout.chars negative x)

end LinkGate.Binary64
