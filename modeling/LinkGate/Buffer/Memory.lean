import LinkGate.Text.Utf8

/-!
# Native memory

Memory has a byte at every address.  `store` changes the bytes of one interval and no others, `load`
reads one.
-/

set_option autoImplicit false

namespace LinkGate

abbrev Address := Nat

def nullAddress : Address := 0

abbrev Memory := Address → UInt8

namespace Memory

def load (memory : Memory) (start : Address) (count : Nat) : Bytes :=
  (List.range count).map fun offset => memory (start + offset)

def store (memory : Memory) (start : Address) (bytes : Bytes) : Memory := fun address =>
  if start ≤ address then (bytes[address - start]?).getD (memory address) else memory address

end Memory

end LinkGate
