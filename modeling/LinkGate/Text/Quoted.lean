import LinkGate.Text.Hidden

/-!
# Quoted text

Messages show a text they were given between double quotes, so that its ends, its line breaks and
its invisible characters can be seen.  `isShown` says which characters stand for themselves, and
`escaped` how the others are written: by a letter where there is one, else by their code point.
-/

set_option autoImplicit false

namespace LinkGate

/-- Lower-case hexadecimal digits, most significant first. -/
def hexDigits (n : Nat) : List Char :=
  Nat.toDigits 16 n

def isShown (c : Char) : Bool :=
  let n := c.toNat
  if n < 0x7F then 0x20 ≤ n else !(Hidden.ranges.any fun range => range.1 ≤ n && n ≤ range.2)

def escaped (c : Char) : List Char :=
  if c = '"' then ['\\', '"']
  else if c = '\\' then ['\\', '\\']
  else if c = '\n' then ['\\', 'n']
  else if c = '\r' then ['\\', 'r']
  else if c = '\t' then ['\\', 't']
  else if c = '\x00' then ['\\', '0']
  else if isShown c then [c]
  else ['\\', 'u', '\x7b'] ++ hexDigits c.toNat ++ ['\x7d']

def quoted (s : String) : String :=
  String.ofList ('"' :: s.toList.flatMap escaped ++ ['"'])

end LinkGate
