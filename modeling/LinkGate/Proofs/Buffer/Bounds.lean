import LinkGate.Proofs.Buffer.Operation

/-!
# Accesses stay in bounds

The operations of a buffer are written without checks of their own: an index outside the bytes reads
a zero, a sum has no end.  Here they are written once more on a machine that stops: at a sum that
does not fit into a word, at an index or a range outside its bytes, and at an assertion that fails.
On every buffer that can come about the machine does not stop, and does what the operations do.
-/

set_option autoImplicit false

namespace LinkGate

/-- Sizes, positions and indices are words, and so below this. -/
def wordLimit : Nat :=
  Nat.pow 2 64

inductive Trap where
  | sum (a b : Nat)
  | index (index length : Nat)
  | range (start stop length : Nat)
  | lengths (target source : Nat)
  | assertion
  deriving DecidableEq, Repr

abbrev Checked (α : Type) := Except Trap α

namespace Checked

def add (a b : Nat) : Checked Nat :=
  if a + b < wordLimit then .ok (a + b) else .error (.sum a b)

def assert (condition : Bool) : Checked Unit :=
  if condition then .ok () else .error .assertion

def slice (bytes : Bytes) (start stop : Nat) : Checked Bytes :=
  if start ≤ stop ∧ stop ≤ bytes.length then .ok ((bytes.take stop).drop start)
  else .error (.range start stop bytes.length)

/-- Copying is between pieces of one length. -/
def copy (length : Nat) (source : Bytes) : Checked Bytes :=
  if length = source.length then .ok source else .error (.lengths length source.length)

theorem add_eq {a b : Nat} (small : a + b < wordLimit) : add a b = .ok (a + b) :=
  if_pos small

theorem assert_eq {condition : Bool} (holds : condition = true) : assert condition = .ok () :=
  if_pos holds

theorem slice_eq {bytes : Bytes} {start stop : Nat} (ordered : start ≤ stop)
    (inside : stop ≤ bytes.length) : slice bytes start stop = .ok ((bytes.take stop).drop start) :=
  if_pos ⟨ordered, inside⟩

theorem copy_eq {length : Nat} {source : Bytes} (same : length = source.length) :
    copy length source = .ok source :=
  if_pos same

/-- A refusal in front of what does not stop. -/
theorem refuse_eq {α : Type} {condition : Prop} [Decidable condition] {refusal value : α}
    {body : Checked α} (runs : ¬condition → body = .ok value) :
    (if condition then .ok refusal else body) = .ok (if condition then refusal else value) := by
  by_cases refused : condition
  · rw [if_pos refused, if_pos refused]
  · rw [if_neg refused, if_neg refused, runs refused]

end Checked

namespace Storage
variable (storage : Storage) (memory : Memory)

def checkedByteAt (index : Nat) : Checked UInt8 :=
  match storage with
  | array bytes _ =>
    if inside : index < bytes.length then .ok bytes[index]
    else .error (.index index bytes.length)
  | native region => do
    Checked.assert (index < region.length)
    return memory (region.base + index)

def checkedSet (index : Nat) (value : UInt8) : Checked (Storage × Memory) :=
  match storage with
  | array bytes readOnly =>
    if index < bytes.length then .ok (array (bytes.set index value) readOnly, memory)
    else .error (.index index bytes.length)
  | native region => do
    Checked.assert (index < region.length && !region.readOnly)
    return (native region, memory.store (region.base + index) [value])

def checkedLoad (start count : Nat) : Checked Bytes :=
  match storage with
  | array bytes _ => do
    let source ← Checked.slice bytes start (← Checked.add start count)
    Checked.copy count source
  | native region => do
    let stop ← Checked.add start count
    Checked.assert (stop ≤ region.length)
    if count = 0 then return []
    return memory.load (region.base + start) count

def checkedStore (start : Nat) (source : Bytes) : Checked (Storage × Memory) :=
  match storage with
  | array bytes readOnly => do
    let stop ← Checked.add start source.length
    let target ← Checked.slice bytes start stop
    let copied ← Checked.copy target.length source
    return (array (bytes.take start ++ copied ++ bytes.drop stop) readOnly, memory)
  | native region => do
    let stop ← Checked.add start source.length
    Checked.assert (stop ≤ region.length && !region.readOnly)
    if source = [] then return (native region, memory)
    return (native region, memory.store (region.base + start) source)

theorem checkedByteAt_eq {index : Nat} (inside : index < storage.length) :
    storage.checkedByteAt memory index = .ok (storage.byteAt memory index) := by
  cases storage with
  | array bytes readOnly =>
    have inside : index < bytes.length := inside
    rw [checkedByteAt, dif_pos inside, byteAt, List.getElem?_eq_getElem inside, Option.getD_some]
  | native region =>
    have inside : index < region.length := inside
    rw [checkedByteAt, Checked.assert_eq (decide_eq_true inside)]
    rfl

theorem checkedSet_eq {index : Nat} (value : UInt8) (writable : ¬storage.readOnly = true)
    (inside : index < storage.length) :
    storage.checkedSet memory index value = .ok (storage.store memory index [value]) := by
  cases storage with
  | array bytes readOnly =>
    have inside : index < bytes.length := inside
    rw [checkedSet, if_pos inside, store, List.set_eq_take_append_cons_drop, if_pos inside,
      List.append_assoc, List.singleton_append, List.length_singleton]
  | native region =>
    have inside : index < region.length := inside
    have writable : ¬region.readOnly = true := writable
    rw [checkedSet, Checked.assert_eq (by simp [inside, writable])]
    rfl

theorem checkedLoad_eq {start count : Nat} (small : storage.length < wordLimit)
    (fits : start + count ≤ storage.length) :
    storage.checkedLoad memory start count = .ok (storage.load memory start count) := by
  have sum := Checked.add_eq (Nat.lt_of_le_of_lt fits small)
  cases storage with
  | array bytes readOnly =>
    have fits : start + count ≤ bytes.length := fits
    have piece : (bytes.take (start + count)).drop start = (bytes.drop start).take count := by
      rw [List.drop_take, Nat.add_sub_cancel_left]
    have whole : count = ((bytes.drop start).take count).length := by
      rw [List.length_take, List.length_drop]
      omega
    rw [checkedLoad, sum]
    change (Checked.slice bytes start (start + count) >>= Checked.copy count) = _
    rw [Checked.slice_eq (Nat.le_add_right _ _) fits, piece]
    exact Checked.copy_eq whole
  | native region =>
    have fits : start + count ≤ region.length := fits
    rw [checkedLoad, sum]
    simp only [Except.bind, Bind.bind, Checked.assert_eq (decide_eq_true fits)]
    by_cases empty : count = 0
    · subst empty
      rfl
    · rw [if_neg empty]
      rfl

theorem checkedStore_eq {start : Nat} {source : Bytes} (writable : ¬storage.readOnly = true)
    (small : storage.length < wordLimit) (fits : start + source.length ≤ storage.length) :
    storage.checkedStore memory start source = .ok (storage.store memory start source) := by
  have sum := Checked.add_eq (Nat.lt_of_le_of_lt fits small)
  cases storage with
  | array bytes readOnly =>
    have fits : start + source.length ≤ bytes.length := fits
    have same : ((bytes.take (start + source.length)).drop start).length = source.length := by
      rw [List.length_drop, List.length_take]
      omega
    rw [checkedStore, sum]
    simp only [Except.bind, Bind.bind, Checked.slice_eq (Nat.le_add_right _ _) fits,
      Checked.copy_eq same]
    rfl
  | native region =>
    have fits : start + source.length ≤ region.length := fits
    have writable : ¬region.readOnly = true := writable
    have asserted :
        (decide (start + source.length ≤ region.length) && !region.readOnly) = true := by
      simp [fits, writable]
    rw [checkedStore, sum]
    simp only [Except.bind, Bind.bind, Checked.assert_eq asserted]
    cases source with
    | nil =>
      rw [if_pos rfl, store, Memory.store_nil]
      rfl
    | cons byte rest => rfl

end Storage

namespace ByteBuffer
variable (buffer : ByteBuffer) (memory : Memory)

def checkedAdvance (count : Nat) : Checked ByteBuffer := do
  let position ← Checked.add buffer.position count
  return { buffer with position := position }

def checkedGet (index : Nat) : Checked (Except BufferError UInt8) := do
  if buffer.limit ≤ index then return .error (.indexOutOfBounds index buffer.limit)
  return .ok (← buffer.storage.checkedByteAt memory index)

def checkedPut (index : Nat) (value : UInt8) :
    Checked (Except BufferError (ByteBuffer × Memory)) := do
  if buffer.readOnly then return .error .readOnly
  if buffer.limit ≤ index then return .error (.indexOutOfBounds index buffer.limit)
  let (storage, memory) ← buffer.storage.checkedSet memory index value
  return .ok ({ buffer with storage := storage }, memory)

def checkedGetNext : Checked (Except BufferError (UInt8 × ByteBuffer)) := do
  if buffer.limit ≤ buffer.position then return .error (.underflow 1 0)
  match ← buffer.checkedGet memory buffer.position with
  | .error error => return .error error
  | .ok value => return .ok (value, ← buffer.checkedAdvance 1)

def checkedPutNext (value : UInt8) : Checked (Except BufferError (ByteBuffer × Memory)) := do
  if buffer.readOnly then return .error .readOnly
  if buffer.limit ≤ buffer.position then return .error (.overflow 1 0)
  match ← buffer.checkedPut memory buffer.position value with
  | .error error => return .error error
  | .ok (buffer, memory) => return .ok (← buffer.checkedAdvance 1, memory)

def checkedGetBytes (count : Nat) : Checked (Except BufferError (Bytes × ByteBuffer)) := do
  if buffer.remaining < count then return .error (.underflow count buffer.remaining)
  let bytes ← buffer.storage.checkedLoad memory buffer.position count
  return .ok (bytes, ← buffer.checkedAdvance count)

def checkedPutBytes (source : Bytes) : Checked (Except BufferError (ByteBuffer × Memory)) := do
  if buffer.readOnly then return .error .readOnly
  if buffer.remaining < source.length then
    return .error (.overflow source.length buffer.remaining)
  let (storage, memory) ← buffer.storage.checkedStore memory buffer.position source
  let next ← { buffer with storage := storage }.checkedAdvance source.length
  return .ok (next, memory)

variable {buffer}

theorem checkedAdvance_eq {count : Nat} (small : buffer.position + count < wordLimit) :
    buffer.checkedAdvance count = .ok (buffer.advance count) := by
  rw [checkedAdvance, Checked.add_eq small]
  rfl

theorem Ordered.inside (ordered : buffer.Ordered) {index : Nat} (within : ¬buffer.limit ≤ index) :
    index < buffer.storage.length :=
  Nat.lt_of_lt_of_le (Nat.lt_of_not_le within) ordered.limit_le_length

theorem Ordered.room (ordered : buffer.Ordered) {count : Nat}
    (enough : ¬buffer.remaining < count) : buffer.position + count ≤ buffer.storage.length := by
  have inOrder := ordered.position_le
  have inside := ordered.limit_le_length
  rw [remaining] at enough
  omega

section Bounded
variable (ordered : buffer.Ordered) (small : buffer.storage.length < wordLimit)
include ordered

theorem checkedGet_eq (index : Nat) :
    buffer.checkedGet memory index = .ok (buffer.get memory index) := by
  rw [checkedGet, get]
  refine Checked.refuse_eq fun within => ?_
  rw [buffer.storage.checkedByteAt_eq memory (ordered.inside within)]
  rfl

theorem checkedPut_eq (index : Nat) (value : UInt8) :
    buffer.checkedPut memory index value = .ok (buffer.put memory index value) := by
  rw [checkedPut, put]
  refine Checked.refuse_eq fun writable => Checked.refuse_eq fun within => ?_
  rw [buffer.storage.checkedSet_eq memory value writable (ordered.inside within)]
  rfl

include small

theorem checkedGetNext_eq : buffer.checkedGetNext memory = .ok (buffer.getNext memory) := by
  rw [checkedGetNext, getNext, checkedGet_eq memory ordered]
  refine Checked.refuse_eq fun within => ?_
  have moved : buffer.checkedAdvance 1 = .ok (buffer.advance 1) :=
    checkedAdvance_eq (Nat.lt_of_le_of_lt (ordered.inside within) small)
  cases buffer.get memory buffer.position with
  | error error => rfl
  | ok value =>
    change (buffer.checkedAdvance 1 >>= _) = _
    rw [moved]
    rfl

theorem checkedPutNext_eq (value : UInt8) :
    buffer.checkedPutNext memory value = .ok (buffer.putNext memory value) := by
  rw [checkedPutNext, putNext, checkedPut_eq memory ordered]
  refine Checked.refuse_eq fun writable => Checked.refuse_eq fun within => ?_
  have moved : (buffer.store memory buffer.position [value]).1.checkedAdvance 1 = .ok _ :=
    checkedAdvance_eq (Nat.lt_of_le_of_lt (ordered.inside within) small)
  rw [put, if_neg writable, if_neg within]
  change ((buffer.store memory buffer.position [value]).1.checkedAdvance 1 >>= _) = _
  rw [moved]
  rfl

theorem checkedGetBytes_eq (count : Nat) :
    buffer.checkedGetBytes memory count = .ok (buffer.getBytes memory count) := by
  rw [checkedGetBytes, getBytes]
  refine Checked.refuse_eq fun enough => ?_
  have fits := ordered.room enough
  rw [buffer.storage.checkedLoad_eq memory small fits]
  change (buffer.checkedAdvance count >>= _) = _
  rw [checkedAdvance_eq (Nat.lt_of_le_of_lt fits small)]
  rfl

theorem checkedPutBytes_eq (source : Bytes) :
    buffer.checkedPutBytes memory source = .ok (buffer.putBytes memory source) := by
  rw [checkedPutBytes, putBytes]
  refine Checked.refuse_eq fun writable => Checked.refuse_eq fun enough => ?_
  have fits := ordered.room enough
  have moved : (buffer.store memory buffer.position source).1.checkedAdvance source.length =
      .ok _ := checkedAdvance_eq (Nat.lt_of_le_of_lt fits small)
  rw [buffer.storage.checkedStore_eq memory writable small fits]
  change ((buffer.store memory buffer.position source).1.checkedAdvance source.length >>= _) = _
  rw [moved]
  rfl

end Bounded

end ByteBuffer

namespace Operation

/-- An operation on the machine that stops; the cursor operations access nothing. -/
def checkedRun (buffer : ByteBuffer) (memory : Memory) (operation : Operation) :
    Checked (Except BufferError (Reply × ByteBuffer × Memory)) :=
  match operation with
  | get index => do
    return (← buffer.checkedGet memory index).map fun value => (.byte value, buffer, memory)
  | put index value => do
    return (← buffer.checkedPut memory index value).map (.done, ·)
  | getNext => do
    return (← buffer.checkedGetNext memory).map fun (value, next) => (.byte value, next, memory)
  | putNext value => do
    return (← buffer.checkedPutNext memory value).map (.done, ·)
  | getBytes old => do
    return (← buffer.checkedGetBytes memory old.length).map fun (value, next) =>
      (.bytes value, next, memory)
  | putBytes source => do
    return (← buffer.checkedPutBytes memory source).map (.done, ·)
  | setPosition _ | setLimit _ | clear | flip | ownBytes => .ok (operation.run buffer memory)

theorem checkedRun_eq {buffer : ByteBuffer} (ordered : buffer.Ordered)
    (small : buffer.storage.length < wordLimit) (memory : Memory) (operation : Operation) :
    operation.checkedRun buffer memory = .ok (operation.run buffer memory) := by
  cases operation with
  | get index =>
    rw [checkedRun, ByteBuffer.checkedGet_eq memory ordered, run]
    cases buffer.get memory index <;> rfl
  | put index value =>
    rw [checkedRun, ByteBuffer.checkedPut_eq memory ordered, run]
    cases buffer.put memory index value <;> rfl
  | getNext =>
    rw [checkedRun, ByteBuffer.checkedGetNext_eq memory ordered small, run]
    cases buffer.getNext memory <;> rfl
  | putNext value =>
    rw [checkedRun, ByteBuffer.checkedPutNext_eq memory ordered small, run]
    cases buffer.putNext memory value <;> rfl
  | getBytes old =>
    rw [checkedRun, ByteBuffer.checkedGetBytes_eq memory ordered small, run]
    cases buffer.getBytes memory old.length <;> rfl
  | putBytes source =>
    rw [checkedRun, ByteBuffer.checkedPutBytes_eq memory ordered small, run]
    cases buffer.putBytes memory source <;> rfl
  | setPosition _ | setLimit _ | clear | flip | ownBytes => rfl

end Operation

namespace ByteBuffer

/-- The buffers that can come about over `size` bytes, whatever else happens to memory. -/
inductive Made : Nat → ByteBuffer → Prop where
  | allocate {size : Nat} (small : size < wordLimit) : Made size (allocate size)
  | wrap {bytes : Bytes} (small : bytes.length < wordLimit) : Made bytes.length (wrap bytes)
  | wrapPointer {size : Nat} (base : Address) (small : size < wordLimit) :
      Made size (wrapPointer base size)
  | duplicate {size : Nat} {buffer : ByteBuffer} (made : Made size buffer) :
      Made size buffer.duplicate
  | asReadOnly {size : Nat} {buffer : ByteBuffer} (made : Made size buffer) :
      Made size buffer.asReadOnly
  | operate {size : Nat} {buffer : ByteBuffer} (made : Made size buffer) (memory : Memory)
      (operation : Operation) : Made size (operation.after buffer memory).1

theorem Made.ordered {size : Nat} {buffer : ByteBuffer} (made : Made size buffer) :
    buffer.Ordered ∧ buffer.capacity = size ∧ size < wordLimit := by
  induction made with
  | allocate small => exact ⟨ordered_ofStorage _, List.length_replicate, small⟩
  | wrap small => exact ⟨ordered_ofStorage _, rfl, small⟩
  | wrapPointer base small => exact ⟨ordered_ofStorage _, rfl, small⟩
  | duplicate _ ih => exact ih
  | asReadOnly _ ih => exact ⟨ih.1.asReadOnly, ih.2⟩
  | operate _ memory operation ih =>
    obtain ⟨ordered, capacity, small⟩ := ih
    exact ⟨Operation.ordered_after ordered memory,
      (Operation.capacity_after memory).trans capacity, small⟩

/-- A buffer over `size` bytes whose cursors are in order, and none of whose operations stops. -/
structure Bounded (size : Nat) (buffer : ByteBuffer) : Prop where
  position_le : buffer.position ≤ buffer.limit
  limit_le : buffer.limit ≤ buffer.capacity
  capacity : buffer.capacity = size
  length : buffer.storage.length = size
  remaining : buffer.remaining + buffer.position = buffer.limit
  /-- No sum, index, range or assertion stops an operation, whatever its arguments. -/
  checked : ∀ memory (operation : Operation),
    operation.checkedRun buffer memory = .ok (operation.run buffer memory)
  /-- What is read and what is written lies within the limit, and so below the largest word. -/
  accesses : ∀ memory (operation : Operation) result,
    operation.run buffer memory = .ok result →
      (∀ start count, operation.read? buffer = some (start, count) →
        start + count ≤ buffer.limit ∧ start + count < wordLimit) ∧
      ∀ start bytes, operation.written? buffer = some (start, bytes) →
        start + bytes.length ≤ buffer.limit ∧ start + bytes.length < wordLimit
  /-- Relative access does not fail in the absolute access that it is made of. -/
  getNext : ∀ memory, buffer.position < buffer.limit →
    ∃ value, buffer.get memory buffer.position = .ok value
  putNext : ∀ memory value, buffer.readOnly = false → buffer.position < buffer.limit →
    ∃ result, buffer.put memory buffer.position value = .ok result

theorem fault?_of_run {buffer : ByteBuffer} {memory : Memory} {operation : Operation}
    {result : Reply × ByteBuffer × Memory} (ran : operation.run buffer memory = .ok result) :
    operation.fault? buffer = none := by
  rw [operation.run_eq] at ran
  cases safe : operation.fault? buffer with
  | none => rfl
  | some error =>
    rw [safe] at ran
    cases ran

/-- Every buffer that can come about is bounded: its cursors stay in order, its capacity stays the
length of its storage, and none of its operations stops. -/
theorem bounded_of_made {size : Nat} {buffer : ByteBuffer} (made : Made size buffer) :
    Bounded size buffer := by
  obtain ⟨ordered, capacity, small⟩ := made.ordered
  have length : buffer.storage.length = size := ordered.capacity_eq.symm.trans capacity
  have inWord : buffer.limit < wordLimit :=
    Nat.lt_of_le_of_lt ordered.limit_le (capacity.symm ▸ small)
  constructor
  · exact ordered.position_le
  · exact ordered.limit_le
  · exact capacity
  · exact length
  · exact Nat.sub_add_cancel ordered.position_le
  · exact fun memory operation =>
      Operation.checkedRun_eq ordered (length.symm ▸ small) memory operation
  · intro memory operation result ran
    have safe := fault?_of_run ran
    refine ⟨fun start count reads => ?_, fun start bytes writes => ?_⟩
    · have within := Operation.read_within ordered safe reads
      exact ⟨within, Nat.lt_of_le_of_lt within inWord⟩
    · have within := (Operation.written_within ordered safe writes).2
      exact ⟨within, Nat.lt_of_le_of_lt within inWord⟩
  · intro memory within
    rw [get, if_neg (Nat.not_le_of_lt within)]
    exact ⟨_, rfl⟩
  · intro memory value writable within
    rw [put, if_neg (by simp [writable]), if_neg (Nat.not_le_of_lt within)]
    exact ⟨_, rfl⟩

theorem bounded_of_made_largest :
    let size := wordLimit - 1
    let region := wrapPointer 4096 size
    let low := (Operation.after region (fun _ => 0) (.setPosition (size - 1))).1
    let full := (Operation.after low (fun _ => 0) (.putNext 5)).1
    Made size full.asReadOnly ∧ Bounded size full.asReadOnly ∧ full.position = size := by
  intro size region low full
  have small : size < wordLimit := by decide
  have made : Made size full.asReadOnly :=
    (((Made.wrapPointer 4096 small).operate _ _).operate _ _).asReadOnly
  exact ⟨made, bounded_of_made made, by decide⟩

end ByteBuffer

end LinkGate
