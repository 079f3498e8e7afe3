import LinkGate.Json.Number

/-!
# What a JSON text is

The grammar of JSON, apart from any reader.  A `Tree` is a value as a text has it: numbers by their
digits, members in their order and with all their keys.  Each part of the grammar relates a text to
what stands at its front and to the rest behind it; blanks may stand in front of every token.
`Document text tree` says that a text is the tree and nothing else.

Strings have characters, not bytes, so that a text is well-formed UTF-8 wherever a string stands; a
surrogate is written only as half of a pair.
-/

set_option autoImplicit false

namespace LinkGate.Json

inductive Tree where
  | null
  | bool (value : Bool)
  | number (written : NumberText)
  | string (value : String)
  | array (elements : List Tree)
  | object (members : List (String × Tree))

/-- Blanks in front of the rest. -/
inductive Spaces : Bytes → Bytes → Prop where
  | none (rest : Bytes) : Spaces rest rest
  | more {b : UInt8} {text rest : Bytes} (space : isSpace b = true) (others : Spaces text rest) :
    Spaces (b :: text) rest

/-! ## Strings -/

/-- A hexadecimal digit, small or capital. -/
def HexDigit (b : UInt8) (n : Nat) : Prop :=
  n < 16 ∧ (b = letter n.digitChar ∨ b = letter n.digitChar.toUpper)

/-- Four hexadecimal digits. -/
inductive HexUnit : Bytes → Nat → Bytes → Prop where
  | digits {a b c d : UInt8} {w x y z : Nat} (first : HexDigit a w) (second : HexDigit b x)
    (third : HexDigit c y) (fourth : HexDigit d z) (rest : Bytes) :
    HexUnit (a :: b :: c :: d :: rest) (((w * 16 + x) * 16 + y) * 16 + z) rest

/-- The bytes of the short escapes, and what they stand for. -/
def shortEscapes : List (UInt8 × Char) :=
  [(quote, '"'), (backslash, '\\'), (slash, '/'), (letter 'b', '\x08'), (letter 'f', '\x0c'),
    (letter 'n', '\n'), (letter 'r', '\r'), (letter 't', '\t')]

/-- An escape, from behind its backslash. -/
inductive Escape : Bytes → Char → Bytes → Prop where
  | short {b : UInt8} {c : Char} (known : (b, c) ∈ shortEscapes) (rest : Bytes) :
    Escape (b :: rest) c rest
  | unit {text rest : Bytes} {n : Nat} (digits : HexUnit text n rest)
    (noSurrogate : n < 0xD800 ∨ 0xE000 ≤ n) : Escape (letter 'u' :: text) (Char.ofNat n) rest
  | pair {text behind rest : Bytes} {high low : Nat}
    (first : HexUnit text high (backslash :: letter 'u' :: behind))
    (isHigh : 0xD800 ≤ high ∧ high < 0xDC00) (second : HexUnit behind low rest)
    (isLow : 0xDC00 ≤ low ∧ low < 0xE000) :
    Escape (letter 'u' :: text)
      (Char.ofNat (0x10000 + (high - 0xD800) * 0x400 + (low - 0xDC00))) rest

/-- A string, from behind its opening quote. -/
inductive Quoted : Bytes → List Char → Bytes → Prop where
  | close (rest : Bytes) : Quoted (quote :: rest) [] rest
  | plain {c : Char} {chars : List Char} {text rest : Bytes} (noQuote : c ≠ '"')
    (noBackslash : c ≠ '\\') (printing : 0x20 ≤ c.toNat) (others : Quoted text chars rest) :
    Quoted (Utf8.encodeChar c ++ text) (c :: chars) rest
  | escaped {c : Char} {chars : List Char} {tail text rest : Bytes} (escape : Escape tail c text)
    (others : Quoted text chars rest) : Quoted (backslash :: tail) (c :: chars) rest

/-! ## Numbers -/

/-- Any number of digits. -/
inductive Digits : Bytes → List Nat → Bytes → Prop where
  | none (rest : Bytes) : Digits rest [] rest
  | more {d : Nat} {digits : List Nat} {text rest : Bytes} (small : d < 10)
    (others : Digits text digits rest) :
    Digits (UInt8.ofNat (0x30 + d) :: text) (d :: digits) rest

inductive Negation : Bytes → Bool → Bytes → Prop where
  | none (rest : Bytes) : Negation rest false rest
  | minus (rest : Bytes) : Negation (minus :: rest) true rest

/-- A leading zero stands alone. -/
structure Whole (text : Bytes) (digits : List Nat) (rest : Bytes) : Prop where
  written : Digits text digits rest
  present : digits ≠ []
  zeroAlone : digits.head? = some 0 → digits = [0]

inductive Fraction : Bytes → List Nat → Bytes → Prop where
  | none (rest : Bytes) : Fraction rest [] rest
  | point {digits : List Nat} {text rest : Bytes} (written : Digits text digits rest)
    (present : digits ≠ []) : Fraction (point :: text) digits rest

inductive Signed : Bytes → Bool → Bytes → Prop where
  | none (rest : Bytes) : Signed rest false rest
  | plus (rest : Bytes) : Signed (plus :: rest) false rest
  | minus (rest : Bytes) : Signed (minus :: rest) true rest

inductive Exponent : Bytes → Option (Bool × List Nat) → Bytes → Prop where
  | none (rest : Bytes) : Exponent rest none rest
  | mark {b : UInt8} {negative : Bool} {digits : List Nat} {text behind rest : Bytes}
    (isMark : b = letter 'e' ∨ b = letter 'E') (sign : Signed text negative behind)
    (written : Digits behind digits rest) (present : digits ≠ []) :
    Exponent (b :: text) (some (negative, digits)) rest

inductive Numeral : Bytes → NumberText → Bytes → Prop where
  | parts {text first second third rest : Bytes} {number : NumberText}
    (sign : Negation text number.negative first) (whole : Whole first number.whole second)
    (fraction : Fraction second number.fraction third)
    (exponent : Exponent third number.exponent rest) : Numeral text number rest

/-- What digits are worth. -/
def decimal (digits : List Nat) : Nat :=
  digits.foldl (fun value d => value * 10 + d) 0

/-- A number that is written by digits alone. -/
structure NumberText.Counts (written : NumberText) (n : Nat) : Prop where
  noSign : written.negative = false
  noFraction : written.fraction = []
  noExponent : written.exponent = none
  value : decimal written.whole = n

/-- A number that is written by digits, with a sign in front when it is below zero. -/
structure NumberText.Integer (written : NumberText) (n : Int) : Prop where
  sign : written.negative = true ↔ n < 0
  noFraction : written.fraction = []
  noExponent : written.exponent = none
  value : decimal written.whole = n.natAbs

/-! ## Values -/

/-- The letters of a literal in front of the rest. -/
def word (letters : List Char) (rest : Bytes) : Bytes :=
  letters.map letter ++ rest

mutual

/-- A tree at the front of a text. -/
inductive Stands : Bytes → Tree → Bytes → Prop where
  | null (rest : Bytes) : Stands (word ['n', 'u', 'l', 'l'] rest) .null rest
  | true (rest : Bytes) : Stands (word ['t', 'r', 'u', 'e'] rest) (.bool .true) rest
  | false (rest : Bytes) : Stands (word ['f', 'a', 'l', 's', 'e'] rest) (.bool .false) rest
  | number {text rest : Bytes} {written : NumberText} (numeral : Numeral text written rest) :
    Stands text (.number written) rest
  | string {text rest : Bytes} {value : String} (quoted : Quoted text value.toList rest) :
    Stands (quote :: text) (.string value) rest
  | array {text rest : Bytes} {elements : List Tree} (inner : Elements .true text elements rest) :
    Stands (openBracket :: text) (.array elements) rest
  | object {text rest : Bytes} {members : List (String × Tree)}
    (inner : Entries .true text members rest) :
    Stands (openBrace :: text) (.object members) rest

/-- The elements that are left of an array, with its closing bracket.  All but the first have a
comma in front. -/
inductive Elements : Bool → Bytes → List Tree → Bytes → Prop where
  | close {first : Bool} {text rest : Bytes} (spaces : Spaces text (closeBracket :: rest)) :
    Elements first text [] rest
  | first {text start behind rest : Bytes} {tree : Tree} {trees : List Tree}
    (spaces : Spaces text start) (stands : Stands start tree behind)
    (others : Elements .false behind trees rest) : Elements .true text (tree :: trees) rest
  | later {text separated start behind rest : Bytes} {tree : Tree} {trees : List Tree}
    (before : Spaces text (comma :: separated)) (spaces : Spaces separated start)
    (stands : Stands start tree behind) (others : Elements .false behind trees rest) :
    Elements .false text (tree :: trees) rest

/-- The members that are left of an object, with its closing brace. -/
inductive Entries : Bool → Bytes → List (String × Tree) → Bytes → Prop where
  | close {first : Bool} {text rest : Bytes} (spaces : Spaces text (closeBrace :: rest)) :
    Entries first text [] rest
  | first {text key behind rest : Bytes} {member : String × Tree}
    {members : List (String × Tree)} (spaces : Spaces text (quote :: key))
    (stands : Entry key member behind) (others : Entries .false behind members rest) :
    Entries .true text (member :: members) rest
  | later {text separated key behind rest : Bytes} {member : String × Tree}
    {members : List (String × Tree)} (before : Spaces text (comma :: separated))
    (spaces : Spaces separated (quote :: key)) (stands : Entry key member behind)
    (others : Entries .false behind members rest) :
    Entries .false text (member :: members) rest

/-- A member, from behind the opening quote of its key. -/
inductive Entry : Bytes → String × Tree → Bytes → Prop where
  | pair {text behind separated start rest : Bytes} {key : String} {tree : Tree}
    (quoted : Quoted text key.toList behind) (before : Spaces behind (colon :: separated))
    (spaces : Spaces separated start) (stands : Stands start tree rest) :
    Entry text (key, tree) rest

end

/-- A text that is one tree, blanks around it left aside. -/
def Document (text : Bytes) (tree : Tree) : Prop :=
  ∃ start rest, Spaces text start ∧ Stands start tree rest ∧ Spaces rest []

end LinkGate.Json
