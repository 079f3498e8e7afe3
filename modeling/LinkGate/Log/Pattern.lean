import LinkGate.Log.Pattern.Bracketed
import LinkGate.Text.Alphanumeric

/-!
# Patterns

A log directive may ask that a field match a pattern, a regular expression.  `isPattern` says which
texts are one; what they match is not looked at.  A repetition that is counted in braces is not
known.
-/

set_option autoImplicit false

namespace LinkGate

namespace Pattern

/-- A part of a pattern that has been passed: flags cannot be repeated, all else can. -/
structure Part where
  depth : Nat
  repeatable : Bool
  deriving DecidableEq, Repr

/-- A group that is open, or the pattern itself. -/
structure Level where
  mode : Mode := {}
  /-- How deep each branch is nested that has ended at a bar. -/
  branches : List Nat := []
  parts : List Part := []
  deriving DecidableEq, Repr

namespace Level

def add (level : Level) (depth : Nat) : Level :=
  { level with parts := ⟨depth, true⟩ :: level.parts }

/-- Sets flags for the rest of the level, whatever bars follow. -/
def flag (level : Level) (mode : Mode) : Level :=
  { level with mode := mode, parts := ⟨0, false⟩ :: level.parts }

def branchDepth (level : Level) : Nat :=
  joined (level.parts.map Part.depth)

def depth (level : Level) : Nat :=
  joined (level.branchDepth :: level.branches)

def endBranch (level : Level) : Level :=
  { level with branches := level.branchDepth :: level.branches, parts := [] }

def repeat? (level : Level) : Option Level :=
  match level.parts with
  | [] => none
  | part :: parts =>
    if part.repeatable then some { level with parts := ⟨part.depth + 1, true⟩ :: parts } else none

end Level

def isGroupName : List Char → Bool
  | [] => false
  | c :: rest =>
    (c == '_' || isAlphabetic c) && rest.all fun c => c ∈ ['_', '.', '[', ']'] || isAlphanumeric c

/-- What is known at some place in a pattern. -/
structure Scan where
  level : Level := {}
  /-- The levels around it, the innermost first. -/
  outer : List Level := []
  /-- The names of groups so far: each may be given once. -/
  names : List (List Char) := []
  deriving DecidableEq, Repr

namespace Scan

def mode (scan : Scan) : Mode :=
  scan.level.mode

def add (scan : Scan) (depth : Nat) : Scan :=
  { scan with level := scan.level.add depth }

def enter (scan : Scan) (mode : Mode) : Scan :=
  { scan with level := { mode := mode }, outer := scan.level :: scan.outer }

/-- Enters a group that has a name, from the name on. -/
def enterNamed? (scan : Scan) (text : List Char) : Option (Scan × List Char) :=
  let name := text.takeWhile (· != '>')
  match text.drop name.length with
  | [] => none
  | _ :: rest =>
    if isGroupName name ∧ name ∉ scan.names then
      some ({ scan with names := name :: scan.names }.enter scan.mode, rest)
    else none

/-- Enters a group, or sets flags for the rest of this one, from behind the opening parenthesis. -/
def openGroup? (scan : Scan) (text : List Char) : Option (Scan × List Char) :=
  match scan.mode.skip text with
  | '?' :: 'P' :: '<' :: text => scan.enterNamed? text
  | '?' :: '<' :: text => scan.enterNamed? text
  | '?' :: text =>
    let flags := text.takeWhile fun c => c != ':' && c != ')'
    match text.drop flags.length, scan.mode.flagged? flags with
    | ':' :: rest, some mode => some (scan.enter mode, rest)
    | ')' :: rest, some mode =>
      if flags = [] then none else some ({ scan with level := scan.level.flag mode }, rest)
    | _, _ => none
  | text => some (scan.enter scan.mode, text)

def closeGroup? (scan : Scan) : Option Scan :=
  match scan.outer with
  | [] => none
  | level :: outer =>
    some { scan with level := level.add (scan.level.depth + 1), outer := outer }

/-- Passes over one part of a pattern, or a sign between parts. -/
def step? (scan : Scan) (c : Char) (rest : List Char) : Option (Scan × List Char) :=
  if c = '(' then scan.openGroup? rest
  else if c = ')' then scan.closeGroup?.map (·, rest)
  else if c = '|' then some ({ scan with level := scan.level.endBranch }, rest)
  else if c ∈ ['*', '+', '?'] then
    let rest := if rest.head? = some '?' then rest.drop 1 else rest
    scan.level.repeat?.map fun level => ({ scan with level := level }, rest)
  else if c = '[' then
    (class? scan.mode rest).map fun (depth, rest) => (scan.add depth, rest)
  else if c = '.' then if scan.mode.unicode then some (scan.add 0, rest) else none
  else if c ∈ ['^', '$'] then some (scan.add 0, rest)
  else if c = '\x7b' then none
  else
    match symbol? scan.mode (c :: rest) with
    | some (symbol, rest) => if scan.mode.allows symbol then some (scan.add 0, rest) else none
    | none => none

end Scan

/-- One fuel unit is spent per part of the pattern. -/
def scanWithin : Nat → Scan → List Char → Bool
  | 0, _, _ => false
  | fuel + 1, scan, text =>
    match scan.mode.skip text with
    | [] => scan.outer.isEmpty && scan.level.depth ≤ nestLimit
    | c :: rest =>
      match scan.step? c rest with
      | some (scan, rest) => scanWithin fuel scan rest
      | none => false

end Pattern

def isPattern (text : List Char) : Bool :=
  Pattern.scanWithin (text.length + 1) {} text

end LinkGate
