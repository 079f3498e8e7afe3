import LinkGate.Log.Pattern.Nesting
import LinkGate.Log.Pattern.Symbol

/-!
# Classes in brackets

A class is written as its items in brackets: characters, ranges of them, named classes and classes
again, with operators between sets of items.  `class?` says where a class ends and how deep it is
nested.
-/

set_option autoImplicit false

namespace LinkGate

namespace Pattern

def classNames : List String := [
  "alnum", "alpha", "ascii", "blank", "cntrl", "digit", "graph", "lower", "print", "punct", "space",
  "upper", "word", "xdigit"]

/-- Whether a named class is negated, and what follows it, from behind its opening bracket. -/
def namedClass? : List Char → Option (Bool × List Char)
  | ':' :: text =>
    let negated := text.head? == some '^'
    let text := if negated then text.drop 1 else text
    let name := text.takeWhile (· != ':')
    match text.drop name.length with
    | ':' :: ']' :: rest =>
      if String.ofList name ∈ classNames then some (negated, rest) else none
    | _ => none
  | _ => none

/-- Whether a named class may stand in a class.  What is not in it is more than ASCII. -/
def Mode.allowsNamed (mode : Mode) (negated : Bool) : Bool :=
  if mode.unicode then !mode.ignoreCase else !negated

/-- Whether two symbols have characters between them that make a range. -/
def isRange : Symbol → Symbol → Bool
  | .char low, .char high => low ≤ high
  | .char low, .byte high => low ≤ high
  | .byte low, .char high => low ≤ high
  | .byte low, .byte high => low ≤ high
  | _, _ => false

/-- What follows a symbol, or all characters from one symbol to another. -/
def range? (mode : Mode) (text : List Char) : Option (List Char) :=
  match symbol? mode text with
  | none => none
  | some (first, rest) =>
    if !mode.allowsInClass first then none
    else
      match mode.skip rest with
      | '-' :: more =>
        let next := mode.ahead? more
        if next = some ']' ∨ next = some '-' then some ('-' :: more)
        else
          match symbol? mode (mode.skip more) with
          | none => none
          | some (last, rest) =>
            if mode.allowsInClass last && isRange first last then some rest else none
      | rest => some rest

structure OpenClass where
  /-- How deep the sets in front of the last operator are nested. -/
  operand : Option Nat := none
  items : List Nat := []
  /-- Whether nothing but dashes has been passed. -/
  atFront : Bool := true
  deriving DecidableEq, Repr

namespace OpenClass

def add (level : OpenClass) (depth : Nat) : OpenClass :=
  { level with items := depth :: level.items, atFront := false }

/-- How deep the sets are nested.  An operator takes all in front of it as one operand. -/
def depth (level : OpenClass) : Nat :=
  match level.operand with
  | none => joined level.items
  | some operand => joined [operand, joined level.items]

def operated (level : OpenClass) : OpenClass :=
  ⟨some level.depth, [], false⟩

/-- Whether a character that has a meaning in a class stands for itself at this place: dashes at the
front, or else a closing bracket. -/
def isPlain (level : OpenClass) (c : Char) : Bool :=
  level.atFront && (c == '-' || (c == ']' && level.items.isEmpty))

end OpenClass

/-- Passes over the mark that negates a class.  Where ASCII alone is meant none can be negated,
because what is not in a class is more than ASCII. -/
def negation? (mode : Mode) (text : List Char) : Option (List Char) :=
  match mode.skip text with
  | '^' :: rest => if mode.unicode then some rest else none
  | rest => some rest

def isOperator (c : Char) : Bool :=
  c ∈ ['&', '-', '~']

/-- How deep a class is nested and what follows it, from some place in it; `outer` are the classes
that are open around the one at hand.  One fuel unit is spent per item. -/
def classWithin (mode : Mode) :
    Nat → OpenClass → List OpenClass → List Char → Option (Nat × List Char)
  | 0, _, _, _ => none
  | fuel + 1, level, outer, text =>
    match mode.skip text with
    | [] => none
    | c :: rest =>
      if level.isPlain c then
        if mode.allowsInClass (.char c) then
          classWithin mode fuel { level.add 0 with atFront := c == '-' } outer rest
        else none
      else if c = ']' then
        match outer with
        | [] => some (level.depth + 1, rest)
        | around :: outer => classWithin mode fuel (around.add (level.depth + 1)) outer rest
      else if c = '[' then
        match namedClass? rest with
        | some (negated, rest) =>
          if mode.allowsNamed negated then classWithin mode fuel (level.add 0) outer rest else none
        | none =>
          match negation? mode rest with
          | some rest => classWithin mode fuel {} (level :: outer) rest
          | none => none
      else if isOperator c ∧ rest.head? = some c then
        classWithin mode fuel level.operated outer (rest.drop 1)
      else
        match range? mode (c :: rest) with
        | some rest => classWithin mode fuel (level.add 0) outer rest
        | none => none

/-- How deep a class is nested and what follows it, from behind its opening bracket. -/
def class? (mode : Mode) (text : List Char) : Option (Nat × List Char) :=
  (negation? mode text).bind fun rest => classWithin mode (rest.length + 1) {} [] rest

end Pattern

end LinkGate
