import LinkGate.Proofs.Json.Grammar
import Mathlib.Data.List.Forall2

/-!
# What is expected of a tree

A `Shape` is the type of a document.  `Flawed shape tree` says in how many ways a tree can miss it,
one constructor for each: a value of the wrong type, or a record with a key that it does not have,
with a key twice, or without one that it must have, at any depth.

There are two more spellings for what is mostly written as an object or as a string: a record as the
array of its values in the order of its keys (`Tree.parts`), and a name as the only key of an object
that holds `null`.
-/

set_option autoImplicit false

namespace LinkGate.Json

inductive Shape where
  | text
  | flag
  /-- A whole number below 2^32. -/
  | count
  | oneOf (names : List String)
  | list (element : Shape)
  /-- A value or `null`. -/
  | optional (value : Shape)
  /-- Keys, whether they must be there, and what their values look like. -/
  | record (fields : List (String × Bool × Shape))

def Shape.keys : Shape → List String
  | record fields => fields.map (·.1)
  | _ => []

/-- The values of a record under its keys. -/
def Tree.parts (keys : List String) : Tree → List (String × Tree)
  | .object members => members
  | .array values => keys.zip values
  | _ => []

/-! ## Values of the right type -/

namespace Tree
variable {α : Type}

def IsText (v : Tree) (s : String) : Prop :=
  v = .string s

def IsFlag (v : Tree) (value : Bool) : Prop :=
  v = .bool value

def IsCount (v : Tree) (n : UInt32) : Prop :=
  ∃ written, v = .number written ∧ written.Counts n.toNat

/-- A whole number of 32 bits with a sign. -/
def IsInt32 (v : Tree) (n : Int) : Prop :=
  ∃ written, v = .number written ∧ written.Integer n ∧ -2147483648 ≤ n ∧ n ≤ 2147483647

/-- One of some names. -/
def Spells (name : String) (v : Tree) : Prop :=
  v = .string name ∨ v = .object [(name, .null)]

def IsOneOf (names : List (String × α)) (v : Tree) (x : α) : Prop :=
  ∃ name, names.lookup name = some x ∧ v.Spells name

def IsOptional (kind : Tree → α → Prop) (v : Tree) : Option α → Prop
  | none => v = .null
  | some x => v ≠ .null ∧ kind v x

def IsList (kind : Tree → α → Prop) (v : Tree) (xs : List α) : Prop :=
  ∃ values, v = .array values ∧ List.Forall₂ kind values xs

/-- The value under a key that must be there. -/
def Gives (parts : List (String × Tree)) (key : String) (kind : Tree → α → Prop) (x : α) : Prop :=
  ∃ v, parts.lookup key = some v ∧ kind v x

/-- The value under a key, or another where the key is not there. -/
def GivesOr (parts : List (String × Tree)) (key : String) (kind : Tree → α → Prop) (absent x : α) :
    Prop :=
  match parts.lookup key with
  | some v => kind v x
  | none => x = absent

end Tree

/-! ## Values of the wrong type -/

inductive Flawed : Shape → Tree → Prop where
  | text {v : Tree} (other : ∀ s, ¬v.IsText s) : Flawed .text v
  | flag {v : Tree} (other : ∀ value, ¬v.IsFlag value) : Flawed .flag v
  | count {v : Tree} (other : ∀ n, ¬v.IsCount n) : Flawed .count v
  | oneOf {names : List String} {v : Tree} (other : ∀ name ∈ names, ¬v.Spells name) :
    Flawed (.oneOf names) v
  | noList {element : Shape} {v : Tree} (other : ∀ values, v ≠ .array values) :
    Flawed (.list element) v
  | element {element : Shape} {values : List Tree} {v : Tree} (there : v ∈ values)
    (flawed : Flawed element v) : Flawed (.list element) (.array values)
  | optional {value : Shape} {v : Tree} (present : v ≠ .null) (flawed : Flawed value v) :
    Flawed (.optional value) v
  | noRecord {fields : List (String × Bool × Shape)} {v : Tree}
    (noObject : ∀ members, v ≠ .object members) (noArray : ∀ values, v ≠ .array values) :
    Flawed (.record fields) v
  | tooLong {fields : List (String × Bool × Shape)} {values : List Tree}
    (longer : fields.length < values.length) : Flawed (.record fields) (.array values)
  | undeclared {fields : List (String × Bool × Shape)} {v : Tree} {key : String}
    (there : key ∈ (v.parts (fields.map (·.1))).map (·.1)) (unknown : key ∉ fields.map (·.1)) :
    Flawed (.record fields) v
  | repeated {fields : List (String × Bool × Shape)} {v : Tree}
    (twice : ¬((v.parts (fields.map (·.1))).map (·.1)).Nodup) : Flawed (.record fields) v
  | missing {fields : List (String × Bool × Shape)} {v : Tree} {key : String} {shape : Shape}
    (required : (key, true, shape) ∈ fields)
    (absent : key ∉ (v.parts (fields.map (·.1))).map (·.1)) : Flawed (.record fields) v
  | part {fields : List (String × Bool × Shape)} {v part : Tree} {key : String} {required : Bool}
    {shape : Shape} (field : (key, required, shape) ∈ fields)
    (there : (key, part) ∈ v.parts (fields.map (·.1))) (flawed : Flawed shape part) :
    Flawed (.record fields) v

end LinkGate.Json
