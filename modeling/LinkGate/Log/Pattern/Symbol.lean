import LinkGate.Log.Pattern.Mode

/-!
# Symbols of a pattern

A symbol is a character that stands for itself, or an escape: a backslash with what it gives a
meaning to.  There are no tables of characters to go by.  So what means a class of characters, the
edge of a word, or letters whose case does not matter, is refused unless it is about ASCII alone.
-/

set_option autoImplicit false

namespace LinkGate

namespace Pattern

inductive Symbol where
  | char (c : Char)
  /-- What two hexadecimal digits stand for: a character, or a byte where ASCII alone is meant. -/
  | byte (c : Char)
  /-- Any digit, any blank or any character of a word. -/
  | anyOf
  | edgeOfWord
  | edgeOfText
  deriving DecidableEq, Repr

def isAscii (c : Char) : Bool :=
  c.toNat < 0x80

/-- Whether a symbol may stand outside of classes.  A character beyond ASCII is refused where ASCII
alone is meant only if it is written as a byte, or if case does not matter. -/
def Mode.allows (mode : Mode) : Symbol → Bool
  | .char c => !mode.ignoreCase || (!mode.unicode && isAscii c)
  | .byte c => if mode.unicode then !mode.ignoreCase else isAscii c
  | .anyOf => !mode.unicode
  | .edgeOfWord => !mode.unicode
  | .edgeOfText => true

def Mode.allowsInClass (mode : Mode) : Symbol → Bool
  | .char c => if mode.unicode then !mode.ignoreCase else isAscii c
  | .byte c => if mode.unicode then !mode.ignoreCase else isAscii c
  | .anyOf => !mode.unicode
  | .edgeOfWord => false
  | .edgeOfText => false

def hexDigit? (c : Char) : Option Nat :=
  if c.isDigit then some (c.toNat - '0'.toNat)
  else if 'a' ≤ c ∧ c ≤ 'f' then some (c.toNat - 'a'.toNat + 10)
  else if 'A' ≤ c ∧ c ≤ 'F' then some (c.toNat - 'A'.toNat + 10)
  else none

/-- Reads on in a number of which so many digits are still to come. -/
def hexFrom? (mode : Mode) : Nat → Nat → List Char → Option (Nat × List Char)
  | 0, value, text => some (value, text)
  | count + 1, value, text =>
    match mode.skip text with
    | [] => none
    | c :: rest => (hexDigit? c).bind fun digit => hexFrom? mode count (value * 16 + digit) rest

def codePoint? (mode : Mode) (count : Nat) (text : List Char) : Option (Char × List Char) :=
  match hexFrom? mode count 0 text with
  | none => none
  | some (value, rest) => if value.isValidChar then some (Char.ofNat value, rest) else none

def letterEscapes : List (Char × Symbol) := [
  ('a', .char '\x07'), ('f', .char '\x0c'), ('t', .char '\t'), ('n', .char '\n'),
  ('r', .char '\r'), ('v', .char '\x0b'), ('A', .edgeOfText), ('z', .edgeOfText),
  ('b', .edgeOfWord), ('B', .edgeOfWord), ('<', .edgeOfWord), ('>', .edgeOfWord),
  ('d', .anyOf), ('s', .anyOf), ('w', .anyOf)]

/-- An escape, from behind its backslash.  A mark that is neither letter nor digit and has no
meaning of its own stands for itself. -/
def escape? (mode : Mode) : List Char → Option (Symbol × List Char)
  | [] => none
  | c :: rest =>
    if c = 'x' then (codePoint? mode 2 rest).map fun (c, rest) => (.byte c, rest)
    else if c = 'u' then (codePoint? mode 4 rest).map fun (c, rest) => (.char c, rest)
    else if c = 'U' then (codePoint? mode 8 rest).map fun (c, rest) => (.char c, rest)
    else
      match letterEscapes.lookup c with
      | some symbol => some (symbol, rest)
      | none => if isAscii c ∧ !c.isAlphanum then some (.char c, rest) else none

def symbol? (mode : Mode) : List Char → Option (Symbol × List Char)
  | [] => none
  | '\\' :: rest => escape? mode rest
  | c :: rest => some (.char c, rest)

end Pattern

end LinkGate
