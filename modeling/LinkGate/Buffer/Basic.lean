import LinkGate.Buffer.Memory

/-!
# Buffers

What every buffer tells about itself: its capacity, its cursors, whether it refuses writes, and
where its bytes live.  A buffer over a native region can give its address back, but only while it
may be written to: an address lets its holder write.
-/

set_option autoImplicit false

namespace LinkGate

/-- An interval of native memory, as one buffer may use it. -/
structure Region where
  base : Address
  length : Nat
  readOnly : Bool
  deriving DecidableEq, Repr

def Region.asReadOnly (region : Region) : Region :=
  { region with readOnly := true }

inductive Provenance where
  /-- Storage of the buffer's own. -/
  | array
  | region (region : Region)
  deriving DecidableEq, Repr

structure BufferView where
  capacity : Nat
  position : Nat
  limit : Nat
  readOnly : Bool
  provenance : Provenance
  deriving DecidableEq, Repr

inductive AddressError where
  | notBridged
  | readOnly
  deriving DecidableEq, Repr

def AddressError.message : AddressError → String
  | notBridged => "unsupported for this buffer: not backed by a native pointer"
  | readOnly => "unsupported for this buffer: buffer is read-only"

namespace BufferView

/-- Bytes that nothing points to, seen as a buffer. -/
def ofBytes (bytes : Bytes) : BufferView where
  capacity := bytes.length
  position := 0
  limit := bytes.length
  readOnly := false
  provenance := .array

def remaining (view : BufferView) : Nat :=
  view.limit - view.position

def hasRemaining (view : BufferView) : Bool :=
  0 < view.remaining

def hasPointer (view : BufferView) : Bool :=
  match view.provenance with
  | .array => false
  | .region _ => true

def pointer (view : BufferView) : Except AddressError Address :=
  match view.provenance with
  | .array => .error .notBridged
  | .region region =>
    if region.readOnly ∨ view.readOnly then .error .readOnly else .ok region.base

end BufferView

inductive BufferError where
  | indexOutOfBounds (index limit : Nat)
  | invalidPosition (position limit : Nat)
  | invalidLimit (limit capacity : Nat)
  | underflow (requested remaining : Nat)
  | overflow (requested remaining : Nat)
  | readOnly
  deriving DecidableEq, Repr

def BufferError.message : BufferError → String
  | indexOutOfBounds index limit => s!"index {index} out of bounds for limit {limit}"
  | invalidPosition position limit => s!"new position {position} exceeds limit {limit}"
  | invalidLimit limit capacity => s!"new limit {limit} exceeds capacity {capacity}"
  | underflow requested remaining =>
    s!"buffer underflow: {requested} bytes requested, {remaining} remaining"
  | overflow requested remaining =>
    s!"buffer overflow: {requested} bytes requested, {remaining} remaining"
  | readOnly => "buffer is read-only"

end LinkGate
