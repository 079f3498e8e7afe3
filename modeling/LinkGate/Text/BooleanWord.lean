/-!
# Boolean words

The words for true and false in environment variables.
-/

set_option autoImplicit false

namespace LinkGate

def trueWords : List String :=
  ["1", "true", "t", "yes", "y", "on"]

def falseWords : List String :=
  ["0", "false", "f", "no", "n", "off"]

/-- The boolean that a word stands for.  ASCII letters may have either case. -/
def booleanWord? (word : String) : Option Bool :=
  let lower := String.ofList (word.toList.map Char.toLower)
  if lower ∈ trueWords then some true
  else if lower ∈ falseWords then some false
  else none

end LinkGate
