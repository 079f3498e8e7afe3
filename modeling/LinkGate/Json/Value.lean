import LinkGate.Decimal.Shortest
import LinkGate.Text.Quoted

/-!
# JSON values and their compact text

A value as reports hold it: a number is an integer or a double, and an object lists its members in
the order in which they are written.  `text` writes a value without any blank.  `put` keeps the
members of an object in ascending order of their keys, each key once.
-/

set_option autoImplicit false

namespace LinkGate

inductive Json where
  | null
  | bool (value : Bool)
  | integer (value : Int)
  | float (negative : Bool) (magnitude : Binary64)
  | string (value : String)
  | array (elements : List Json)
  | object (members : List (String × Json))
  deriving Inhabited

namespace Json

/-- A character inside a JSON string; what has no letter of its own is written by code point. -/
def escape (c : Char) : List Char :=
  if c = '"' then ['\\', '"']
  else if c = '\\' then ['\\', '\\']
  else if c = '\x08' then ['\\', 'b']
  else if c = '\t' then ['\\', 't']
  else if c = '\n' then ['\\', 'n']
  else if c = '\x0c' then ['\\', 'f']
  else if c = '\r' then ['\\', 'r']
  else if c.toNat < 0x20 then
    ['\\', 'u', '0', '0', Nat.digitChar (c.toNat / 16), Nat.digitChar (c.toNat % 16)]
  else [c]

def stringChars (s : String) : List Char :=
  '"' :: s.toList.flatMap escape ++ ['"']

def integerChars (n : Int) : List Char :=
  if n < 0 then '-' :: Nat.toDigits 10 n.natAbs else Nat.toDigits 10 n.natAbs

/-- Floats are positional from 0.00001 up to sixteen digits before the point. -/
def floatLayout : Binary64.Layout := ⟨-5, 16⟩

mutual

def chars : Json → List Char
  | null => ['n', 'u', 'l', 'l']
  | bool true => ['t', 'r', 'u', 'e']
  | bool false => ['f', 'a', 'l', 's', 'e']
  | integer n => integerChars n
  | float negative magnitude => floatLayout.chars negative magnitude
  | string s => stringChars s
  | array elements => '[' :: elementChars elements ++ [']']
  | object members => '\x7b' :: memberChars members ++ ['\x7d']

def elementChars : List Json → List Char
  | [] => []
  | [v] => chars v
  | v :: w :: rest => chars v ++ ',' :: elementChars (w :: rest)

def memberChars : List (String × Json) → List Char
  | [] => []
  | [(key, v)] => stringChars key ++ ':' :: chars v
  | (key, v) :: next :: rest =>
    stringChars key ++ ':' :: chars v ++ ',' :: memberChars (next :: rest)

end

def text (v : Json) : String :=
  String.ofList v.chars

def strings (items : List String) : Json :=
  array (items.map string)

/-- Members in ascending order of their keys. -/
abbrev Members := List (String × Json)

def put (key : String) (value : Json) : Members → Members
  | [] => [(key, value)]
  | (k, v) :: rest =>
    if key < k then (key, value) :: (k, v) :: rest
    else if key = k then (key, value) :: rest
    else (k, v) :: put key value rest

/-- Of members with one key the last counts. -/
def collect (members : List (String × Json)) : Members :=
  members.foldl (fun sorted member => put member.1 member.2 sorted) []

end Json

end LinkGate
