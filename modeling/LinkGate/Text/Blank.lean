/-!
# Blank characters

`isBlank` is the Unicode property White_Space; `trim` takes blank characters off both ends of a text
and nothing else.  Zero width spaces, the byte order mark and the control characters U+001C to
U+001F are not blank.
-/

set_option autoImplicit false

namespace LinkGate

def isBlank (c : Char) : Bool :=
  let n := c.toNat
  (0x09 ≤ n && n ≤ 0x0D) || n == 0x20 || n == 0x85 || n == 0xA0 || n == 0x1680 ||
    (0x2000 ≤ n && n ≤ 0x200A) || n == 0x2028 || n == 0x2029 || n == 0x202F || n == 0x205F ||
    n == 0x3000

def trimEnd (chars : List Char) : List Char :=
  (chars.reverse.dropWhile isBlank).reverse

def trim (s : String) : String :=
  String.ofList (trimEnd (s.toList.dropWhile isBlank))

end LinkGate
