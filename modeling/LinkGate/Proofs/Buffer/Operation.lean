import LinkGate.Buffer.Session
import LinkGate.Proofs.Buffer.Memory

/-!
# What an operation does

An operation fails with its fault, or it replies, moves the cursors and stores what it writes; it
reads and writes within the limit.  `run_eq` says so of all operations at once, and every law of
buffers is drawn from it.
-/

set_option autoImplicit false

namespace LinkGate

namespace Operation

/-- Why an operation fails, the refusal of a write before its bounds. -/
def fault? (buffer : ByteBuffer) : Operation → Option BufferError
  | setPosition position =>
    if buffer.limit < position then some (.invalidPosition position buffer.limit) else none
  | setLimit limit =>
    if buffer.capacity < limit then some (.invalidLimit limit buffer.capacity) else none
  | clear | flip | ownBytes => none
  | get index =>
    if buffer.limit ≤ index then some (.indexOutOfBounds index buffer.limit) else none
  | put index _ =>
    if buffer.readOnly then some .readOnly
    else if buffer.limit ≤ index then some (.indexOutOfBounds index buffer.limit) else none
  | getNext => if buffer.limit ≤ buffer.position then some (.underflow 1 0) else none
  | putNext _ =>
    if buffer.readOnly then some .readOnly
    else if buffer.limit ≤ buffer.position then some (.overflow 1 0) else none
  | getBytes old =>
    if buffer.remaining < old.length then some (.underflow old.length buffer.remaining)
    else none
  | putBytes source =>
    if buffer.readOnly then some .readOnly
    else if buffer.remaining < source.length then
      some (.overflow source.length buffer.remaining)
    else none

/-- Where an operation writes, and what. -/
def written? (buffer : ByteBuffer) : Operation → Option (Nat × Bytes)
  | put index value => some (index, [value])
  | putNext value => some (buffer.position, [value])
  | putBytes source => some (buffer.position, source)
  | _ => none

/-- What an operation that does not fail writes to memory: nothing, where the buffer holds its bytes
itself. -/
def write? (buffer : ByteBuffer) (operation : Operation) : Option Write :=
  match buffer.storage with
  | .array _ _ => none
  | .native region =>
    (operation.written? buffer).map fun (index, bytes) => ⟨region.base + index, bytes⟩

/-- Where an operation reads, and how many bytes. -/
def read? (buffer : ByteBuffer) : Operation → Option (Nat × Nat)
  | get index => some (index, 1)
  | getNext => some (buffer.position, 1)
  | getBytes old => some (buffer.position, old.length)
  | _ => none

/-- Position and limit after an operation. -/
def cursors (buffer : ByteBuffer) : Operation → Nat × Nat
  | setPosition position => (position, buffer.limit)
  | setLimit limit => (min buffer.position limit, limit)
  | clear => (0, buffer.capacity)
  | flip => (0, buffer.position)
  | getNext | putNext _ => (buffer.position + 1, buffer.limit)
  | getBytes old => (buffer.position + old.length, buffer.limit)
  | putBytes source => (buffer.position + source.length, buffer.limit)
  | get _ | put _ _ | ownBytes => (buffer.position, buffer.limit)

def reply (buffer : ByteBuffer) (memory : Memory) : Operation → Reply
  | get index => .byte (buffer.storage.byteAt memory index)
  | getNext => .byte (buffer.storage.byteAt memory buffer.position)
  | getBytes old => .bytes (buffer.storage.load memory buffer.position old.length)
  | ownBytes => .ownBytes buffer.ownBytes?
  | _ => .done

/-- Storage and memory after an operation. -/
def stored (buffer : ByteBuffer) (memory : Memory) (operation : Operation) : Storage × Memory :=
  match operation.written? buffer with
  | some (start, source) => buffer.storage.store memory start source
  | none => (buffer.storage, memory)

/-- The buffer after an operation that did not fail. -/
def next (buffer : ByteBuffer) (memory : Memory) (operation : Operation) : ByteBuffer where
  storage := (operation.stored buffer memory).1
  capacity := buffer.capacity
  position := (operation.cursors buffer).1
  limit := (operation.cursors buffer).2

variable (buffer : ByteBuffer) (memory : Memory)

theorem run_eq (operation : Operation) :
    operation.run buffer memory =
      match operation.fault? buffer with
      | some error => .error error
      | none => .ok (operation.reply buffer memory, operation.next buffer memory,
          (operation.stored buffer memory).2) := by
  cases operation with
  | setPosition position =>
    simp only [run, ByteBuffer.setPosition, fault?]
    split <;> rfl
  | setLimit limit =>
    simp only [run, ByteBuffer.setLimit, fault?]
    split <;> rfl
  | clear => rfl
  | flip => rfl
  | get index =>
    simp only [run, ByteBuffer.get, fault?]
    split <;> rfl
  | put index value =>
    simp only [run, ByteBuffer.put, fault?]
    split
    · rfl
    · split <;> rfl
  | getNext =>
    simp only [run, ByteBuffer.getNext, ByteBuffer.get, fault?]
    split <;> rfl
  | putNext value =>
    simp only [run, ByteBuffer.putNext, ByteBuffer.put, fault?]
    split
    · rfl
    · split <;> rfl
  | getBytes old =>
    simp only [run, ByteBuffer.getBytes, fault?]
    split <;> rfl
  | putBytes source =>
    simp only [run, ByteBuffer.putBytes, fault?]
    split
    · rfl
    · split <;> rfl
  | ownBytes => rfl

theorem memory_stored (operation : Operation) :
    (operation.stored buffer memory).2 = latest memory (operation.write? buffer).toList := by
  rw [stored, write?]
  cases operation.written? buffer with
  | none => cases buffer.storage <;> rfl
  | some write =>
    cases buffer.storage with
    | array bytes readOnly => rfl
    | native region => exact (latest_singleton memory _ _).symm

end Operation

namespace Storage
variable (storage : Storage) (memory : Memory)

theorem length_store {start : Nat} {source : Bytes}
    (fits : start + source.length ≤ storage.length) :
    (storage.store memory start source).1.length = storage.length := by
  cases storage with
  | array bytes readOnly =>
    simp only [length] at fits
    simp only [store, length, List.length_append, List.length_take, List.length_drop]
    omega
  | native region => rfl

theorem readOnly_store (start : Nat) (source : Bytes) :
    (storage.store memory start source).1.readOnly = storage.readOnly := by
  cases storage <;> rfl

theorem length_asReadOnly : storage.asReadOnly.length = storage.length := by
  cases storage <;> rfl

theorem readOnly_asReadOnly : storage.asReadOnly.readOnly = true := by
  cases storage <;> rfl

end Storage

namespace ByteBuffer

/-- The cursors are in order, within a capacity that is all of the storage. -/
structure Ordered (buffer : ByteBuffer) : Prop where
  position_le : buffer.position ≤ buffer.limit
  limit_le : buffer.limit ≤ buffer.capacity
  capacity_eq : buffer.capacity = buffer.storage.length

theorem ordered_ofStorage (storage : Storage) : (ofStorage storage).Ordered :=
  ⟨Nat.zero_le _, Nat.le_refl _, rfl⟩

variable {buffer : ByteBuffer}

theorem Ordered.asReadOnly (ordered : buffer.Ordered) : buffer.asReadOnly.Ordered :=
  ⟨ordered.position_le, ordered.limit_le,
    ordered.capacity_eq.trans buffer.storage.length_asReadOnly.symm⟩

theorem Ordered.limit_le_length (ordered : buffer.Ordered) :
    buffer.limit ≤ buffer.storage.length :=
  ordered.capacity_eq ▸ ordered.limit_le

end ByteBuffer

namespace Operation
variable {buffer : ByteBuffer} {operation : Operation}

theorem read_within (ordered : buffer.Ordered) (safe : operation.fault? buffer = none)
    {index count : Nat} (reads : operation.read? buffer = some (index, count)) :
    index + count ≤ buffer.limit := by
  have inOrder := ordered.position_le
  cases operation with
  | get _ | getNext =>
    simp only [fault?, ite_eq_right_iff, reduceCtorEq, imp_false] at safe
    cases reads
    omega
  | getBytes old =>
    simp only [fault?, ite_eq_right_iff, reduceCtorEq, imp_false] at safe
    rw [ByteBuffer.remaining] at safe
    cases reads
    omega
  | setPosition _ | setLimit _ | clear | flip | put _ _ | putNext _ | putBytes _ | ownBytes =>
    exact absurd reads nofun

/-- A write to a buffer that refuses writes fails for that reason, wherever it would go. -/
theorem fault?_readOnly (refused : buffer.readOnly = true) {write : Nat × Bytes}
    (writes : operation.written? buffer = some write) :
    operation.fault? buffer = some .readOnly := by
  cases operation with
  | put _ _ | putNext _ | putBytes _ => rw [fault?, if_pos refused]
  | setPosition _ | setLimit _ | clear | flip | get _ | getNext | getBytes _ | ownBytes =>
    exact absurd writes nofun

theorem written_within (ordered : buffer.Ordered) (safe : operation.fault? buffer = none)
    {start : Nat} {source : Bytes} (writes : operation.written? buffer = some (start, source)) :
    buffer.readOnly = false ∧ start + source.length ≤ buffer.limit := by
  have inOrder := ordered.position_le
  cases refused : buffer.readOnly with
  | true =>
    rw [fault?_readOnly refused writes] at safe
    cases safe
  | false =>
    refine ⟨rfl, ?_⟩
    cases operation with
    | put _ _ | putNext _ =>
      simp only [fault?, refused, Bool.false_eq_true, if_false, ite_eq_right_iff, reduceCtorEq,
        imp_false] at safe
      cases writes
      rw [List.length_singleton]
      omega
    | putBytes bytes =>
      simp only [fault?, refused, Bool.false_eq_true, if_false, ite_eq_right_iff, reduceCtorEq,
        imp_false] at safe
      rw [ByteBuffer.remaining] at safe
      cases writes
      omega
    | setPosition _ | setLimit _ | clear | flip | get _ | getNext | getBytes _ | ownBytes =>
      exact absurd writes nofun

/-- What an operation stores takes the place of as many bytes. -/
theorem length_stored (ordered : buffer.Ordered) (memory : Memory)
    (safe : operation.fault? buffer = none) :
    (operation.stored buffer memory).1.length = buffer.storage.length := by
  rw [stored]
  cases writes : operation.written? buffer with
  | none => rfl
  | some write =>
    obtain ⟨start, source⟩ := write
    have within := (written_within ordered safe writes).2
    exact Storage.length_store _ _ (Nat.le_trans within ordered.limit_le_length)

theorem readOnly_next (memory : Memory) :
    (operation.next buffer memory).readOnly = buffer.readOnly := by
  rw [ByteBuffer.readOnly, next, stored]
  cases operation.written? buffer with
  | none => rfl
  | some write => exact buffer.storage.readOnly_store memory write.1 write.2

theorem cursors_ordered (ordered : buffer.Ordered) (safe : operation.fault? buffer = none) :
    (operation.cursors buffer).1 ≤ (operation.cursors buffer).2 ∧
      (operation.cursors buffer).2 ≤ buffer.capacity := by
  have inOrder := ordered.position_le
  have inside := ordered.limit_le
  cases operation with
  | setPosition _ | setLimit _ =>
    simp only [fault?, ite_eq_right_iff, reduceCtorEq, imp_false] at safe
    simp only [cursors]
    omega
  | clear => exact ⟨Nat.zero_le _, Nat.le_refl _⟩
  | flip => exact ⟨Nat.zero_le _, Nat.le_trans inOrder inside⟩
  | getNext =>
    have within : buffer.position + 1 ≤ buffer.limit := read_within ordered safe rfl
    exact ⟨within, inside⟩
  | putNext value =>
    have within : buffer.position + 1 ≤ buffer.limit := (written_within ordered safe rfl).2
    exact ⟨within, inside⟩
  | getBytes old =>
    exact ⟨read_within ordered safe rfl, inside⟩
  | putBytes source =>
    exact ⟨(written_within ordered safe rfl).2, inside⟩
  | get _ | put _ _ | ownBytes => exact ⟨inOrder, inside⟩

theorem ordered_next (ordered : buffer.Ordered) (memory : Memory)
    (safe : operation.fault? buffer = none) : (operation.next buffer memory).Ordered := by
  obtain ⟨inOrder, inside⟩ := cursors_ordered ordered safe
  exact ⟨inOrder, inside, ordered.capacity_eq.trans (length_stored ordered memory safe).symm⟩

/-- Buffer and memory after an operation, whether it failed or not. -/
def after (buffer : ByteBuffer) (memory : Memory) (operation : Operation) :
    ByteBuffer × Memory :=
  match operation.run buffer memory with
  | .error _ => (buffer, memory)
  | .ok (_, next, memory) => (next, memory)

theorem ordered_after (ordered : buffer.Ordered) (memory : Memory) :
    (operation.after buffer memory).1.Ordered := by
  rw [after, run_eq]
  cases safe : operation.fault? buffer with
  | some error => exact ordered
  | none => exact ordered_next ordered memory safe

theorem capacity_after (memory : Memory) :
    (operation.after buffer memory).1.capacity = buffer.capacity := by
  rw [after, run_eq]
  cases operation.fault? buffer <;> rfl

theorem readOnly_after (memory : Memory) :
    (operation.after buffer memory).1.readOnly = buffer.readOnly := by
  rw [after, run_eq]
  cases operation.fault? buffer with
  | some error => rfl
  | none => exact readOnly_next memory

end Operation

end LinkGate
