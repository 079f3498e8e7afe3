/-!
# How deep a pattern is nested

Parts that follow one another, branches with bars between them and the items of a class are each
joined into one.  `joined` says how deep the result is nested; nothing in a pattern may be nested
deeper than `nestLimit`.
-/

set_option autoImplicit false

namespace LinkGate

namespace Pattern

def nestLimit : Nat := 250

/-- How deep pieces are nested when they are joined.  One piece alone stays as it is. -/
def joined : List Nat → Nat
  | [] => 0
  | [depth] => depth
  | depths => 1 + depths.foldl max 0

end Pattern

end LinkGate
