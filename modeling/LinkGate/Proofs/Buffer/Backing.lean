import LinkGate.Proofs.Buffer.Operation

/-!
# Backing storage does not show

A buffer over memory behaves as one that holds a copy of the same bytes: `copied` is the map from
the first to the second, and `run_copied` says that every operation commutes with it.  So nothing
that can be observed along a run tells the two apart.

The one exception is the operation that asks for a buffer's own bytes, which native memory never
has.
-/

set_option autoImplicit false

namespace LinkGate

namespace Storage
variable (storage : Storage) (memory other : Memory)

def bytes (storage : Storage) (memory : Memory) : Bytes :=
  match storage with
  | array bytes _ => bytes
  | native region => memory.load region.base region.length

/-- Storage that holds a copy of the bytes. -/
def copied (storage : Storage) (memory : Memory) : Storage :=
  array (storage.bytes memory) storage.readOnly

theorem length_bytes : (storage.bytes memory).length = storage.length := by
  cases storage with
  | array bytes readOnly => rfl
  | native region => exact memory.length_load region.base region.length

theorem byteAt_copied {index : Nat} (inside : index < storage.length) :
    (storage.copied memory).byteAt other index = storage.byteAt memory index := by
  cases storage with
  | array bytes readOnly => rfl
  | native region =>
    have inside : index < region.length := inside
    rw [copied, byteAt, bytes, Memory.load_getElem? memory region.base inside, byteAt,
      Option.getD_some]

theorem load_copied {start count : Nat} (fits : start + count ≤ storage.length) :
    (storage.copied memory).load other start count = storage.load memory start count := by
  cases storage with
  | array bytes readOnly => rfl
  | native region => exact memory.take_drop_load region.base fits

theorem store_copied {start : Nat} {source : Bytes}
    (fits : start + source.length ≤ storage.length) :
    (storage.copied memory).store other start source =
      ((storage.store memory start source).1.copied (storage.store memory start source).2,
        other) := by
  cases storage with
  | array bytes readOnly => rfl
  | native region =>
    have fits : start + source.length ≤ region.length := fits
    rw [copied, store, store, copied, bytes, bytes,
      Memory.load_store_inside memory region.base source fits]

theorem copied_asReadOnly :
    storage.asReadOnly.copied memory = (storage.copied memory).asReadOnly := by
  cases storage <;> rfl

end Storage

namespace ByteBuffer

/-- A buffer that holds a copy of what this one lies over. -/
def copied (buffer : ByteBuffer) (memory : Memory) : ByteBuffer :=
  { buffer with storage := buffer.storage.copied memory }

variable (buffer : ByteBuffer) (memory : Memory)

theorem copied_wrapPointer {base : Nat} {data : Bytes}
    (holds : memory.load base data.length = data) :
    (wrapPointer base data.length).copied memory = wrap data := by
  have same : (Storage.native ⟨base, data.length, false⟩).copied memory = .array data false := by
    rw [Storage.copied, Storage.bytes, holds]
    rfl
  rw [copied, wrapPointer, ofStorage, same]
  rfl

theorem copied_asReadOnly :
    buffer.asReadOnly.copied memory = (buffer.copied memory).asReadOnly := by
  rw [copied, asReadOnly, Storage.copied_asReadOnly]
  rfl

end ByteBuffer

namespace Operation
variable {buffer : ByteBuffer} {operation : Operation} (memory other : Memory)

theorem fault?_copied : operation.fault? (buffer.copied memory) = operation.fault? buffer := by
  cases operation <;> rfl

theorem written?_copied :
    operation.written? (buffer.copied memory) = operation.written? buffer := by
  cases operation <;> rfl

theorem cursors_copied : operation.cursors (buffer.copied memory) = operation.cursors buffer := by
  cases operation <;> rfl

theorem reply_copied (ordered : buffer.Ordered) (safe : operation.fault? buffer = none)
    (listed : operation ≠ .ownBytes) :
    operation.reply (buffer.copied memory) other = operation.reply buffer memory := by
  -- A read that succeeds stays within the limit, and so within the bytes that were copied.
  have inside : ∀ {index count : Nat}, operation.read? buffer = some (index, count) →
      index + count ≤ buffer.storage.length := fun reads =>
    Nat.le_trans (read_within ordered safe reads) ordered.limit_le_length
  cases operation with
  | get index =>
    have within : index < buffer.storage.length := inside rfl
    exact congrArg Reply.byte (buffer.storage.byteAt_copied memory other within)
  | getNext =>
    have within : buffer.position < buffer.storage.length := inside rfl
    exact congrArg Reply.byte (buffer.storage.byteAt_copied memory other within)
  | getBytes old =>
    have within : buffer.position + old.length ≤ buffer.storage.length := inside rfl
    exact congrArg Reply.bytes (buffer.storage.load_copied memory other within)
  | ownBytes => exact absurd rfl listed
  | setPosition _ | setLimit _ | clear | flip | put _ _ | putNext _ | putBytes _ => rfl

theorem stored_copied (ordered : buffer.Ordered) (safe : operation.fault? buffer = none) :
    operation.stored (buffer.copied memory) other =
      ((operation.stored buffer memory).1.copied (operation.stored buffer memory).2, other) := by
  rw [stored, stored, written?_copied]
  cases writes : operation.written? buffer with
  | none => rfl
  | some write =>
    obtain ⟨start, source⟩ := write
    have within := (written_within ordered safe writes).2
    exact buffer.storage.store_copied memory other (Nat.le_trans within ordered.limit_le_length)

theorem next_copied (ordered : buffer.Ordered) (safe : operation.fault? buffer = none) :
    operation.next (buffer.copied memory) other =
      (operation.next buffer memory).copied (operation.stored buffer memory).2 := by
  rw [next, stored_copied memory other ordered safe, cursors_copied]
  rfl

theorem run_copied (ordered : buffer.Ordered) (listed : operation ≠ .ownBytes) :
    operation.run (buffer.copied memory) other =
      match operation.run buffer memory with
      | .error error => .error error
      | .ok (reply, next, memory) => .ok (reply, next.copied memory, other) := by
  rw [run_eq, run_eq, fault?_copied]
  cases safe : operation.fault? buffer with
  | some error => rfl
  | none =>
    simp only [reply_copied memory other ordered safe listed,
      next_copied memory other ordered safe, stored_copied memory other ordered safe]

end Operation

/-- What one operation shows: how it ended, what the destination of a read then holds, and the
buffer after it. -/
structure Observation where
  result : Except BufferError Reply
  destination : Option Bytes
  capacity : Nat
  position : Nat
  limit : Nat
  remaining : Nat
  bytes : Bytes
  deriving DecidableEq

namespace ByteBuffer

def observation (buffer : ByteBuffer) (memory : Memory) (operation : Operation) : Observation :=
  let result := (operation.run buffer memory).map Prod.fst
  let (next, memory) := operation.after buffer memory
  { result := result
    destination := operation.destination? result
    capacity := next.capacity
    position := next.position
    limit := next.limit
    remaining := next.remaining
    bytes := next.storage.bytes memory }

/-- Runs operations one after another on a buffer that nothing else touches. -/
def observe (buffer : ByteBuffer) (memory : Memory) : List Operation → List Observation
  | [] => []
  | operation :: rest =>
    let (next, after) := operation.after buffer memory
    buffer.observation memory operation :: next.observe after rest

theorem observation_copied {buffer : ByteBuffer} {operation : Operation} (memory other : Memory)
    (ordered : buffer.Ordered) (listed : operation ≠ .ownBytes) :
    (buffer.copied memory).observation other operation = buffer.observation memory operation ∧
      operation.after (buffer.copied memory) other =
        ((operation.after buffer memory).1.copied (operation.after buffer memory).2, other) := by
  rw [observation, observation, Operation.after, Operation.after,
    Operation.run_copied memory other ordered listed]
  cases operation.run buffer memory with
  | error error => exact ⟨rfl, rfl⟩
  | ok value => exact ⟨rfl, rfl⟩

theorem observe_copied (other : Memory) (operations : List Operation)
    (listed : ∀ operation ∈ operations, operation ≠ .ownBytes) (buffer : ByteBuffer)
    (memory : Memory) (ordered : buffer.Ordered) :
    (buffer.copied memory).observe other operations = buffer.observe memory operations := by
  induction operations generalizing buffer memory with
  | nil => rfl
  | cons operation rest ih =>
    rw [List.forall_mem_cons] at listed
    obtain ⟨here, there⟩ := observation_copied memory other ordered listed.1
    rw [observe, observe, here, there]
    exact congrArg _ (ih listed.2 _ _ (Operation.ordered_after ordered memory))

/-- Bytes that a buffer holds and the same bytes in native memory show the same along every run,
and also when both refuse writes. -/
theorem observe_wrap_eq_wrapPointer (data : Bytes) (base : Nat) (memory other : Memory)
    (operations : List Operation) (holds : memory.load base data.length = data)
    (listed : ∀ operation ∈ operations, operation ≠ .ownBytes) :
    (wrap data).observe other operations =
        (wrapPointer base data.length).observe memory operations ∧
      (wrap data).asReadOnly.observe other operations =
        (wrapPointer base data.length).asReadOnly.observe memory operations := by
  have copy := copied_wrapPointer memory holds
  have ordered := ordered_ofStorage (.native ⟨base, data.length, false⟩)
  constructor
  · rw [← copy]
    exact observe_copied other operations listed _ memory ordered
  · have readOnly : (wrap data).asReadOnly =
        (wrapPointer base data.length).asReadOnly.copied memory := by
      rw [← copy, copied_asReadOnly]
    rw [readOnly]
    exact observe_copied other operations listed _ memory ordered.asReadOnly

theorem observe_wrap_eq_wrapPointer_rewound :
    let data : Bytes := [1, 2, 3, 4]
    let memory := Memory.store (fun _ => 0) 16 data
    let operations : List Operation :=
      [.setPosition 1, .putBytes [9, 8], .putNext 7, .putNext 6, .flip, .getBytes [0, 0],
        .getBytes [0, 0, 0], .get 5, .setLimit 2, .put 1 5]
    (wrap data).observe (fun _ => 255) operations =
        (wrapPointer 16 4).observe memory operations ∧
      (wrap data).asReadOnly.observe (fun _ => 255) operations =
        (wrapPointer 16 4).asReadOnly.observe memory operations ∧
      ((wrapPointer 16 4).observe memory operations).getLast?.map Observation.bytes =
        some [1, 5, 8, 7] := by
  intro data memory operations
  obtain ⟨writable, readOnly⟩ := observe_wrap_eq_wrapPointer data 16 memory (fun _ => 255)
    operations (by decide) (by decide)
  exact ⟨writable, readOnly, by decide⟩

end ByteBuffer

end LinkGate
