import LinkGate.Text.Pieces
import LinkGate.Text.Utf8

/-!
# Paths

A path is a sequence of bytes, cut into segments at its slashes.  Its `components` leave out what
does not change where it leads: empty segments, and dots that are not in front.  Paths are ordered
by their components: the root, then `.`, then `..`, then names, which compare as bytes.  Two
spellings with the same components are equal in this order.
-/

set_option autoImplicit false

namespace LinkGate

structure Path where
  bytes : Bytes
  deriving DecidableEq, Repr

namespace Path

def separator : UInt8 := 0x2F

def dot : Bytes := [0x2E]

def dots : Bytes := [0x2E, 0x2E]

def ofText (s : String) : Path :=
  ⟨Utf8.encode s⟩

def text (path : Path) : String :=
  Utf8.decodeLossy path.bytes

def isAbsolute (path : Path) : Bool :=
  path.bytes.head? == some separator

/-- The bytes between slashes, empty runs included. -/
def segments (path : Path) : List Bytes :=
  pieces separator path.bytes

/-- Names compare byte by byte; one that another begins with comes before it. -/
def compareNames (a b : Bytes) : Ordering :=
  List.compareLex Ord.compare (a.map UInt8.toNat) (b.map UInt8.toNat)

inductive Component where
  | root
  | current
  | parent
  | name (bytes : Bytes)
  deriving DecidableEq, Repr

namespace Component

def ofSegment? (segment : Bytes) : Option Component :=
  if segment = [] ∨ segment = dot then none
  else if segment = dots then some parent
  else some (name segment)

/-- The kind, and behind it the bytes of a name. -/
def rank : Component → List Nat
  | root => [0]
  | current => [1]
  | parent => [2]
  | name bytes => 3 :: bytes.map UInt8.toNat

end Component

/-- A dot in front counts, unless a slash stands before it. -/
def components (path : Path) : List Component :=
  let front :=
    if path.isAbsolute then [.root]
    else if path.segments.head? = some dot then [.current]
    else []
  front ++ path.segments.filterMap Component.ofSegment?

def compare (a b : Path) : Ordering :=
  List.compareLex (List.compareLex Ord.compare) (a.components.map Component.rank)
    (b.components.map Component.rank)

def le (a b : Path) : Bool :=
  (compare a b).isLE

/-- Paths in order; those that are equal in it keep the order they were given in. -/
def sort (paths : List Path) : List Path :=
  paths.mergeSort le

/-- The paths to the components of some segments, which are given last to first.  The longest comes
first. -/
def pathsTo : List Bytes → List Path
  | [] => []
  | last :: before =>
    if (Component.ofSegment? last).isSome ∨ (last = dot ∧ before = []) then
      ⟨[separator].intercalate (last :: before).reverse⟩ :: pathsTo before
    else pathsTo before

/-- The path, and in front of it those that lead to it, up to the root. -/
def ancestors (path : Path) : List Path :=
  match pathsTo path.segments.reverse with
  | [] => []
  | _ :: parents => path :: parents

/-- The path that leads from `base` along `path`.  An absolute path begins anew. -/
def join (base path : Path) : Path :=
  if path.isAbsolute then path
  else if base.bytes.isEmpty ∨ base.bytes.getLast? = some separator then
    ⟨base.bytes ++ path.bytes⟩
  else ⟨base.bytes ++ separator :: path.bytes⟩

end Path

end LinkGate
