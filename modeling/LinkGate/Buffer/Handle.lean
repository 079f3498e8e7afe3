import LinkGate.Buffer.ByteBuffer

/-!
# Buffer handles

A host in another language holds buffers by handles, which may be null, and is told of failures by
number.  A null handle counts as a buffer that is not bridged; a null place for an address is a
fault of its own, found first.
-/

set_option autoImplicit false

namespace LinkGate

inductive HostCode where
  | ok
  | null
  | notBridged
  | readOnly
  | internal
  deriving DecidableEq, Repr

namespace HostCode

def number : HostCode → Nat
  | ok => 0
  | null => 61001
  | notBridged => 61002
  | readOnly => 61003
  | internal => 61015

def all : List HostCode :=
  [ok, null, notBridged, readOnly, internal]

def ofError : AddressError → HostCode
  | .notBridged => notBridged
  | .readOnly => readOnly

end HostCode

/-- A buffer that a host holds, or null. -/
abbrev Handle := Option ByteBuffer

namespace Handle

def wrapPointer (base : Address) (length : Nat) : Handle :=
  some (.wrapPointer base length)

def asReadOnly (handle : Handle) : Handle :=
  handle.map ByteBuffer.asReadOnly

/-- One for a buffer over native memory, else zero. -/
def hasPointer : Handle → Nat
  | none => 0
  | some buffer => if buffer.view.hasPointer then 1 else 0

/-- The code, and the address that was written to the place for it.  `hasPlace` says that there is
one. -/
def pointer (handle : Handle) (hasPlace : Bool) : HostCode × Option Address :=
  if hasPlace then
    match handle with
    | none => (.notBridged, none)
    | some buffer =>
      match buffer.view.pointer with
      | .error error => (.ofError error, none)
      | .ok address => (.ok, some address)
  else (.null, none)

end Handle

end LinkGate
