import LinkGate.Buffer.Basic

/-!
# Byte buffers

A byte buffer holds its bytes itself or lies over native memory; the operations are the same for
both.  Whether it refuses writes is kept with the storage: in the region, where it lies over one.
Absolute access goes by index and is bounded by the limit, relative access starts at the position
and moves it.  An operation that writes gives back buffer and memory; one that fails gives back
neither, so nothing has changed.
-/

set_option autoImplicit false

namespace LinkGate

inductive Storage where
  | array (bytes : Bytes) (readOnly : Bool)
  | native (region : Region)
  deriving DecidableEq, Repr

structure ByteBuffer where
  storage : Storage
  capacity : Nat
  position : Nat
  limit : Nat
  deriving DecidableEq, Repr

namespace Storage

def length : Storage → Nat
  | array bytes _ => bytes.length
  | native region => region.length

def readOnly : Storage → Bool
  | array _ readOnly => readOnly
  | native region => region.readOnly

def asReadOnly : Storage → Storage
  | array bytes _ => array bytes true
  | native region => native region.asReadOnly

def provenance : Storage → Provenance
  | array _ _ => .array
  | native region => .region region

def byteAt (storage : Storage) (memory : Memory) (index : Nat) : UInt8 :=
  match storage with
  | array bytes _ => (bytes[index]?).getD 0
  | native region => memory (region.base + index)

def load (storage : Storage) (memory : Memory) (start count : Nat) : Bytes :=
  match storage with
  | array bytes _ => (bytes.drop start).take count
  | native region => memory.load (region.base + start) count

def store (storage : Storage) (memory : Memory) (start : Nat) (source : Bytes) :
    Storage × Memory :=
  match storage with
  | array bytes readOnly =>
    (array (bytes.take start ++ source ++ bytes.drop (start + source.length)) readOnly, memory)
  | native region => (native region, memory.store (region.base + start) source)

end Storage

namespace ByteBuffer

def ofStorage (storage : Storage) : ByteBuffer where
  storage := storage
  capacity := storage.length
  position := 0
  limit := storage.length

def wrap (bytes : Bytes) : ByteBuffer :=
  ofStorage (.array bytes false)

def allocate (capacity : Nat) : ByteBuffer :=
  wrap (List.replicate capacity 0)

/-- A buffer over the memory from `base` on.  Nothing is copied. -/
def wrapPointer (base : Address) (length : Nat) : ByteBuffer :=
  ofStorage (.native ⟨base, length, false⟩)

def readOnly (buffer : ByteBuffer) : Bool :=
  buffer.storage.readOnly

def provenance (buffer : ByteBuffer) : Provenance :=
  buffer.storage.provenance

def view (buffer : ByteBuffer) : BufferView where
  capacity := buffer.capacity
  position := buffer.position
  limit := buffer.limit
  readOnly := buffer.readOnly
  provenance := buffer.provenance

def remaining (buffer : ByteBuffer) : Nat :=
  buffer.limit - buffer.position

/-- The buffer's own bytes, if it has them and may change them. -/
def ownBytes? (buffer : ByteBuffer) : Option Bytes :=
  match buffer.storage with
  | .array bytes false => some bytes
  | _ => none

/-- Bytes of the buffer's own are copied, native memory is shared. -/
def duplicate (buffer : ByteBuffer) : ByteBuffer :=
  buffer

def asReadOnly (buffer : ByteBuffer) : ByteBuffer :=
  { buffer with storage := buffer.storage.asReadOnly }

def setPosition (buffer : ByteBuffer) (position : Nat) : Except BufferError ByteBuffer :=
  if buffer.limit < position then .error (.invalidPosition position buffer.limit)
  else .ok { buffer with position := position }

/-- The position stays within the new limit. -/
def setLimit (buffer : ByteBuffer) (limit : Nat) : Except BufferError ByteBuffer :=
  if buffer.capacity < limit then .error (.invalidLimit limit buffer.capacity)
  else .ok { buffer with limit := limit, position := min buffer.position limit }

def clear (buffer : ByteBuffer) : ByteBuffer :=
  { buffer with position := 0, limit := buffer.capacity }

def flip (buffer : ByteBuffer) : ByteBuffer :=
  { buffer with position := 0, limit := buffer.position }

def get (buffer : ByteBuffer) (memory : Memory) (index : Nat) : Except BufferError UInt8 :=
  if buffer.limit ≤ index then .error (.indexOutOfBounds index buffer.limit)
  else .ok (buffer.storage.byteAt memory index)

/-- Stores bytes without a check. -/
def store (buffer : ByteBuffer) (memory : Memory) (start : Nat) (source : Bytes) :
    ByteBuffer × Memory :=
  let (storage, memory) := buffer.storage.store memory start source
  ({ buffer with storage := storage }, memory)

def put (buffer : ByteBuffer) (memory : Memory) (index : Nat) (value : UInt8) :
    Except BufferError (ByteBuffer × Memory) :=
  if buffer.readOnly then .error .readOnly
  else if buffer.limit ≤ index then .error (.indexOutOfBounds index buffer.limit)
  else .ok (buffer.store memory index [value])

def advance (buffer : ByteBuffer) (count : Nat) : ByteBuffer :=
  { buffer with position := buffer.position + count }

def getNext (buffer : ByteBuffer) (memory : Memory) : Except BufferError (UInt8 × ByteBuffer) :=
  if buffer.limit ≤ buffer.position then .error (.underflow 1 0)
  else
    match buffer.get memory buffer.position with
    | .error error => .error error
    | .ok value => .ok (value, buffer.advance 1)

def putNext (buffer : ByteBuffer) (memory : Memory) (value : UInt8) :
    Except BufferError (ByteBuffer × Memory) :=
  if buffer.readOnly then .error .readOnly
  else if buffer.limit ≤ buffer.position then .error (.overflow 1 0)
  else
    match buffer.put memory buffer.position value with
    | .error error => .error error
    | .ok (buffer, memory) => .ok (buffer.advance 1, memory)

def getBytes (buffer : ByteBuffer) (memory : Memory) (count : Nat) :
    Except BufferError (Bytes × ByteBuffer) :=
  if buffer.remaining < count then .error (.underflow count buffer.remaining)
  else .ok (buffer.storage.load memory buffer.position count, buffer.advance count)

def putBytes (buffer : ByteBuffer) (memory : Memory) (source : Bytes) :
    Except BufferError (ByteBuffer × Memory) :=
  if buffer.readOnly then .error .readOnly
  else if buffer.remaining < source.length then
    .error (.overflow source.length buffer.remaining)
  else
    let (buffer, memory) := buffer.store memory buffer.position source
    .ok (buffer.advance source.length, memory)

end ByteBuffer

end LinkGate
