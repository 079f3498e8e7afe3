import LinkGate.Log.Event
import LinkGate.Log.FieldValue
import LinkGate.Text.Alphanumeric
import LinkGate.Text.Blank
import LinkGate.Text.Pieces
import LinkGate.Text.Utf8

/-!
# Log filters

A filter is a list of directives with commas between them.  A directive lets events through up to a
level: all events, or those whose target begins with a name, or those that have a certain field.  It
is written `target[span{field}]=level`, and any part may be left out.  No event is ever inside of a
span here, so a directive for a span, or for the value of a field of one, speaks of no event.

Of the directives that speak of an event the one with the longest target counts, then one with a
field; of two with the same target and field the later.  An event that no directive speaks of is not
let through.
-/

set_option autoImplicit false

namespace LinkGate

/-- The events that a directive speaks of. -/
structure Scope where
  target : Option String := none
  field : Option String := none
  /-- Whether only events inside of certain spans are meant. -/
  inSpan : Bool := false
  deriving DecidableEq, Repr

namespace Scope

def holds (scope : Scope) (event : Event) : Bool :=
  !scope.inSpan && scope.target.all (fun name => name.toList.isPrefixOf event.target.toList) &&
    scope.field.all event.carries

/-- Whether a scope is at least as close as another one.  Scopes with a field each go by the order
of the names of the fields. -/
def outweighs (scope other : Scope) : Bool :=
  let size (scope : Scope) : Nat := scope.target.elim 0 (·.length + 1)
  if size scope = size other then
    match scope.field, other.field with
    | _, none => true
    | none, some _ => false
    | some name, some otherName => !(name < otherName)
  else size other < size scope

end Scope

structure Directive where
  scope : Scope
  greatest : Nat
  deriving DecidableEq, Repr

namespace Directive

def levelWords : List (String × Nat) := [
  ("", Level.error.rank), ("error", Level.error.rank), ("warn", Level.warn.rank),
  ("info", Level.info.rank), ("debug", Level.debug.rank), ("trace", Level.trace.rank), ("off", 0)]

def digitRank? (text : String) : Option Nat :=
  let digits := if text.toList.head? = some '+' then text.toList.drop 1 else text.toList
  if digits ≠ [] ∧ digits.all Char.isDigit then
    let value := digits.foldl (fun n c => n * 10 + (c.toNat - '0'.toNat)) 0
    if value ≤ Level.trace.rank then some value else none
  else none

/-- The rank of a level that is written as a number or as a word, in either case. -/
def rank? (text : String) : Option Nat :=
  (digitRank? text).or (levelWords.lookup (String.ofList (text.toList.map Char.toLower)))

/-- The text of a directive, and the same without the blanks around it.  The parts of a directive
are told apart in the second, but are cut out of the first, as many bytes from its front.  So a
blank in front of a directive moves all its parts, and one behind it belongs to the last part. -/
structure Source where
  text : Bytes
  marks : List Char

namespace Source

def ofText (text : String) : Source :=
  ⟨Utf8.encode text, (trim text).toList⟩

/-- The number of bytes in front of what is left of the marks. -/
def place (source : Source) (left : List Char) : Nat :=
  (Utf8.encode (String.ofList source.marks)).length - (Utf8.encode (String.ofList left)).length

def between? (source : Source) (left later : List Char) : Option String :=
  let start := source.place left
  Utf8.decode? ((source.text.drop start).take (source.place later - start))

def from? (source : Source) (left : List Char) : Option String :=
  Utf8.decode? (source.text.drop (source.place left))

end Source

/-- The level behind an equals sign; without one all levels are meant. -/
def levelFrom? (source : Source) (left : List Char) : Option Nat :=
  match source.from? left with
  | none => none
  | some text => if text = "" then some Level.trace.rank else rank? text

/-- What may follow a span: nothing, or a level. -/
def withLevel? (source : Source) (scope : Scope) : List Char → Option Directive
  | [] => some ⟨scope, Level.trace.rank⟩
  | c :: left =>
    if c = '=' then (levelFrom? source left).map fun rank => ⟨scope, rank⟩ else none

/-- Adds a field, written as its name or with a value behind an equals sign. -/
def withField? (scope : Scope) (text : String) : Option Scope :=
  if text = "" then none
  else
    match pieces '=' text.toList with
    | _ :: value :: _ => if isFieldValue value then some { scope with inSpan := true } else none
    | _ => some { scope with field := some text }

def fieldsFrom? (source : Source) (scope : Scope) (left : List Char) : Option Directive :=
  let later := left.dropWhile (· != '\x7d')
  match later with
  | _ :: ']' :: rest =>
    match (source.between? left later).bind (withField? scope) with
    | some scope => withLevel? source scope rest
    | none => none
  | _ => none

def spanFrom? (source : Source) (scope : Scope) (left : List Char) : Option Directive :=
  let later := left.dropWhile fun c => c != ']' && c != '\x7b'
  match later with
  | [] => none
  | c :: rest =>
    if c = ']' then withLevel? source { scope with inSpan := true } rest
    else
      match source.between? left later with
      | some name => fieldsFrom? source { scope with inSpan := name ≠ "" } rest
      | none => none

def mayBegin (c : Char) : Bool :=
  c == '-' || c == ':' || c == '_' || isAlphanumeric c

/-- A directive that is a single word is a level if there is one of that name, else a target. -/
def ofWord (text : String) : Directive :=
  match rank? text with
  | some rank => ⟨{}, rank⟩
  | none => ⟨{ target := some text }, Level.trace.rank⟩

def ofText? (text : String) : Option Directive :=
  let source := Source.ofText text
  match source.marks with
  | [] => none
  | first :: rest =>
    if first = '[' then spanFrom? source {} rest
    else if !mayBegin first then none
    else
      let later := source.marks.dropWhile fun c => c != '=' && c != '['
      match later with
      | [] => some (ofWord text)
      | c :: rest =>
        match source.between? source.marks later with
        | none => none
        | some target =>
          let scope : Scope := { target := some target }
          if c = '[' then spanFrom? source scope rest else withLevel? source scope later

end Directive

abbrev Filter := List Directive

namespace Filter

def ofText? (text : String) : Option Filter :=
  let written := (pieces ',' text.toList).filter (· ≠ [])
  written.mapM fun directive => Directive.ofText? (String.ofList directive)

def deciding? (event : Event) : Filter → Option Directive
  | [] => none
  | directive :: rest =>
    match deciding? event rest with
    | none => if directive.scope.holds event then some directive else none
    | some later =>
      if directive.scope.holds event && !later.scope.outweighs directive.scope then some directive
      else some later

def admits (filter : Filter) (event : Event) : Bool :=
  match filter.deciding? event with
  | none => false
  | some directive => event.level.rank ≤ directive.greatest

/-- The filter that an environment variable holds; where there is none that can be read, warnings
are let through, and debug events too when the run is to be verbose. -/
def ofEnvironment (value : Option Bytes) (verbose : Bool) : Filter :=
  match (value.bind Utf8.decode?).bind ofText? with
  | some filter => filter
  | none => [⟨{}, if verbose then Level.debug.rank else Level.warn.rank⟩]

end Filter

end LinkGate
