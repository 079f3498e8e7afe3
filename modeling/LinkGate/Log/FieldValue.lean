import LinkGate.Log.Pattern

/-!
# Values of fields

The values that a log directive may ask a field to have: a truth value, a number or a pattern.
-/

set_option autoImplicit false

namespace LinkGate

namespace FieldValue

def digitsFrom (text : List Char) : List Char :=
  text.dropWhile Char.isDigit

/-- A decimal number without its sign: digits with a point before, between or behind them, and an
exponent if need be; or a word for what is no finite number. -/
def isUnsignedNumber (text : List Char) : Bool :=
  let whole := digitsFrom text
  let fraction := if whole.head? = some '.' then digitsFrom (whole.drop 1) else whole
  let hasDigit := text.head?.any Char.isDigit ||
    (whole.head? == some '.' && (whole.drop 1).head?.any Char.isDigit)
  let power := fraction.drop 1
  let power := if power.head? ∈ [some '+', some '-'] then power.drop 1 else power
  let hasPower := fraction.head? ∈ [some 'e', some 'E'] && !power.isEmpty && power.all Char.isDigit
  (hasDigit && (fraction.isEmpty || hasPower)) ||
    String.ofList (text.map Char.toLower) ∈ ["inf", "infinity", "nan"]

end FieldValue

/-- Whether a field can be asked to have the value.  Of truth values and numbers only a number with
a plus sign is not a pattern too. -/
def isFieldValue (text : List Char) : Bool :=
  match text with
  | '+' :: number => FieldValue.isUnsignedNumber number
  | _ => isPattern text

end LinkGate
