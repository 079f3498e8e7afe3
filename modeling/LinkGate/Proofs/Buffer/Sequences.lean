import LinkGate.Proofs.Buffer.Bounds
import LinkGate.Proofs.Outcome

/-!
# Sequences of operations

What buffer and memory are after operations that run one after another.  Calls that write from the
position on do what one call with all their bytes does, because a store of adjacent bytes is a store
of the one part and then of the other; calls that read from the position on reply with one part and
then the other.
-/

set_option autoImplicit false

namespace LinkGate

/-! ## Adjacent bytes -/

namespace Storage
variable (storage : Storage) (memory : Memory)

theorem store_nil (start : Nat) : storage.store memory start [] = (storage, memory) := by
  cases storage with
  | array bytes readOnly => simp [store]
  | native region => rw [store, Memory.store_nil]

/-- Storing adjacent bytes is storing the first of them and then the others. -/
theorem store_append {start : Nat} {front : Bytes} (fits : start + front.length ≤ storage.length)
    (back : Bytes) :
    storage.store memory start (front ++ back) =
      (storage.store memory start front).1.store (storage.store memory start front).2
        (start + front.length) back := by
  cases storage with
  | array bytes readOnly =>
    have fits : start + front.length ≤ bytes.length := fits
    have held : (bytes.take start ++ front).length = start + front.length := by
      rw [List.length_append, List.length_take]
      omega
    have kept (count : Nat) :
        (bytes.take start ++ front ++ bytes.drop (start + front.length)).drop
          (start + front.length + count) = bytes.drop (start + front.length + count) := by
      rw [← held, List.drop_append, List.drop_eq_nil_of_le (Nat.le_add_right _ _),
        List.nil_append, Nat.add_sub_cancel_left, List.drop_drop]
    simp only [store, List.take_append_of_le_length (Nat.le_of_eq held.symm), kept]
    rw [List.take_of_length_le (Nat.le_of_eq held), List.length_append, Nat.add_assoc,
      List.append_assoc, List.append_assoc, List.append_assoc, List.append_assoc]
  | native region =>
    rw [store, Memory.store_append, Nat.add_assoc]
    rfl

theorem load_zero (start : Nat) : storage.load memory start 0 = [] := by
  cases storage <;> rfl

theorem load_append (start first second : Nat) :
    storage.load memory start (first + second) =
      storage.load memory start first ++ storage.load memory (start + first) second := by
  cases storage with
  | array bytes readOnly => rw [load, load, load, List.take_add, List.drop_drop]
  | native region =>
    rw [load, load, load, Memory.load, Memory.load, Memory.load, List.range_add, List.map_append,
      List.map_map]
    simp [Function.comp_def, Nat.add_assoc]

theorem load_one {index : Nat} (inside : index < storage.length) :
    storage.load memory index 1 = [storage.byteAt memory index] := by
  cases storage with
  | array bytes readOnly =>
    have inside : index < bytes.length := inside
    rw [load, byteAt, List.drop_eq_getElem_cons inside, List.getElem?_eq_getElem inside]
    rfl
  | native region => rfl

end Storage

/-! ## Sequences of operations -/

namespace Operation

/-- Runs operations one after another, up to the first that fails. -/
def runAll (buffer : ByteBuffer) (memory : Memory) :
    List Operation → Except BufferError (List Reply × ByteBuffer × Memory)
  | [] => .ok ([], buffer, memory)
  | operation :: rest => do
    let (reply, next, after) ← operation.run buffer memory
    let (replies, last, left) ← runAll next after rest
    return (reply :: replies, last, left)

variable {buffer next last : ByteBuffer} {memory after left : Memory} {operation : Operation}
  {reply : Reply} {replies others : List Reply} {front rest : List Operation}
  {error : BufferError}

theorem run_of_safe (memory : Memory) (safe : operation.fault? buffer = none) :
    operation.run buffer memory = .ok (operation.reply buffer memory,
      operation.next buffer memory, (operation.stored buffer memory).2) := by
  rw [run_eq, safe]

theorem run_of_fault (memory : Memory) (failing : operation.fault? buffer = some error) :
    operation.run buffer memory = .error error := by
  rw [run_eq, failing]

theorem run_ends_iff :
    (∃ result, operation.run buffer memory = .ok result) ↔ operation.fault? buffer = none := by
  rw [run_eq]
  cases operation.fault? buffer with
  | none => simp
  | some error => simp

theorem run_fails_iff :
    (∃ error, operation.run buffer memory = .error error) ↔ operation.fault? buffer ≠ none := by
  rw [run_eq]
  cases operation.fault? buffer with
  | none => simp
  | some error => simp

theorem runAll_cons (ran : operation.run buffer memory = .ok (reply, next, after))
    (others : runAll next after rest = .ok (replies, last, left)) :
    runAll buffer memory (operation :: rest) = .ok (reply :: replies, last, left) := by
  rw [runAll, ran]
  simp only [bind, Except.bind, others]
  rfl

theorem runAll_append (ran : runAll buffer memory front = .ok (replies, next, after))
    (following : runAll next after rest = .ok (others, last, left)) :
    runAll buffer memory (front ++ rest) = .ok (replies ++ others, last, left) := by
  induction front generalizing buffer memory replies with
  | nil =>
    cases ran
    exact following
  | cons operation front ih =>
    obtain ⟨⟨reply, between, kept⟩, first, ran⟩ := bind_eq_ok_iff.mp ran
    obtain ⟨⟨middle, _, _⟩, ran, same⟩ := bind_eq_ok_iff.mp ran
    cases same
    exact runAll_cons first (ih ran)

/-- A sequence fails with the first of its operations that does. -/
theorem runAll_fails (ran : runAll buffer memory front = .ok (replies, next, after))
    (failed : operation.run next after = .error error) :
    runAll buffer memory (front ++ operation :: rest) = .error error := by
  induction front generalizing buffer memory replies with
  | nil =>
    cases ran
    rw [List.nil_append, runAll, failed]
    rfl
  | cons operation front ih =>
    obtain ⟨⟨reply, between, kept⟩, first, ran⟩ := bind_eq_ok_iff.mp ran
    obtain ⟨⟨middle, _, _⟩, ran, same⟩ := bind_eq_ok_iff.mp ran
    cases same
    rw [List.cons_append, runAll, first]
    simp only [bind, Except.bind, ih ran]

end Operation

/-! ## Writing from the position on -/

namespace ByteBuffer

/-- Buffer and memory after bytes were stored from the position on. -/
def filled (buffer : ByteBuffer) (memory : Memory) (source : Bytes) : ByteBuffer × Memory :=
  let (buffer, memory) := buffer.store memory buffer.position source
  (buffer.advance source.length, memory)

variable {buffer : ByteBuffer} (memory : Memory)

theorem Ordered.within (ordered : buffer.Ordered) {count : Nat}
    (fits : count ≤ buffer.remaining) : buffer.position + count ≤ buffer.limit := by
  rw [Nat.add_comm]
  exact Nat.add_le_of_le_sub ordered.position_le fits

theorem not_ended (more : 1 ≤ buffer.remaining) : ¬buffer.limit ≤ buffer.position :=
  Nat.not_le.mpr (Nat.lt_of_sub_pos more)

theorem filled_nil : buffer.filled memory [] = (buffer, memory) := by
  simp only [filled, store, Storage.store_nil]
  rfl

theorem filled_append (ordered : buffer.Ordered) {front : Bytes}
    (fits : front.length ≤ buffer.remaining) (back : Bytes) :
    buffer.filled memory (front ++ back) =
      (buffer.filled memory front).1.filled (buffer.filled memory front).2 back := by
  have room := ordered.room (Nat.not_lt.mpr fits)
  simp only [filled, store, Storage.store_append _ memory room, advance, List.length_append,
    Nat.add_assoc]

theorem ordered_filled (ordered : buffer.Ordered) {source : Bytes}
    (fits : source.length ≤ buffer.remaining) : (buffer.filled memory source).1.Ordered := by
  have room := ordered.room (Nat.not_lt.mpr fits)
  exact ⟨ordered.within fits, ordered.limit_le,
    ordered.capacity_eq.trans (buffer.storage.length_store memory room).symm⟩

theorem readOnly_store (start : Nat) (source : Bytes) :
    (buffer.store memory start source).1.readOnly = buffer.readOnly :=
  buffer.storage.readOnly_store memory start source

theorem readOnly_filled (source : Bytes) :
    (buffer.filled memory source).1.readOnly = buffer.readOnly :=
  readOnly_store memory buffer.position source

theorem remaining_filled (source : Bytes) :
    (buffer.filled memory source).1.remaining = buffer.remaining - source.length :=
  (Nat.sub_sub _ _ _).symm

end ByteBuffer

/-- A call that writes from the position on: a byte, or some. -/
inductive Writing where
  | one (value : UInt8)
  | many (source : Bytes)
  deriving DecidableEq, Repr

namespace Writing

def operation : Writing → Operation
  | one value => .putNext value
  | many source => .putBytes source

def bytes : Writing → Bytes
  | one value => [value]
  | many source => source

end Writing

namespace Operation
variable {buffer : ByteBuffer} (memory : Memory)

theorem run_writing (writable : buffer.readOnly = false) {writing : Writing}
    (fits : writing.bytes.length ≤ buffer.remaining) :
    writing.operation.run buffer memory = .ok (.done, buffer.filled memory writing.bytes) := by
  cases writing with
  | one value =>
    have before := ByteBuffer.not_ended fits
    apply run_of_safe
    simp [Writing.operation, fault?, writable, before]
  | many source =>
    have fits : source.length ≤ buffer.remaining := fits
    apply run_of_safe
    simp [Writing.operation, fault?, writable, fits]

/-- Calls that write do what one call with all their bytes does. -/
theorem runAll_writings (ordered : buffer.Ordered) (writable : buffer.readOnly = false)
    {writings : List Writing} (fits : (writings.flatMap Writing.bytes).length ≤ buffer.remaining) :
    runAll buffer memory (writings.map Writing.operation) =
      .ok (List.replicate writings.length .done,
        buffer.filled memory (writings.flatMap Writing.bytes)) := by
  induction writings generalizing buffer memory with
  | nil =>
    rw [List.flatMap_nil, ByteBuffer.filled_nil]
    rfl
  | cons writing rest ih =>
    rw [List.flatMap_cons, List.length_append] at fits
    have first : writing.bytes.length ≤ buffer.remaining := by omega
    have others : (rest.flatMap Writing.bytes).length ≤
        (buffer.filled memory writing.bytes).1.remaining := by
      rw [ByteBuffer.remaining_filled]
      omega
    have ordered' := ByteBuffer.ordered_filled memory ordered first
    have writable' := (ByteBuffer.readOnly_filled memory writing.bytes).trans writable
    rw [List.flatMap_cons, ByteBuffer.filled_append memory ordered first]
    exact runAll_cons (run_writing memory writable first) (ih _ ordered' writable' others)

end Operation

/-! ## Reading from the position on -/

/-- A call that reads from the position on: a byte, or as many as a destination holds. -/
inductive Reading where
  | one
  | many (old : Bytes)
  deriving DecidableEq, Repr

namespace Reading

def operation : Reading → Operation
  | one => .getNext
  | many old => .getBytes old

def count : Reading → Nat
  | one => 1
  | many old => old.length

/-- How many bytes calls read. -/
def total : List Reading → Nat
  | [] => 0
  | reading :: rest => reading.count + total rest

/-- What calls that read reply. -/
def replies (buffer : ByteBuffer) (memory : Memory) : List Reading → List Reply
  | [] => []
  | reading :: rest =>
    reading.operation.reply buffer memory :: replies (buffer.advance reading.count) memory rest

end Reading

namespace ByteBuffer
variable {buffer : ByteBuffer}

theorem Ordered.advance (ordered : buffer.Ordered) {count : Nat}
    (fits : count ≤ buffer.remaining) : (buffer.advance count).Ordered :=
  ⟨ordered.within fits, ordered.limit_le, ordered.capacity_eq⟩

theorem remaining_advance (count : Nat) :
    (buffer.advance count).remaining = buffer.remaining - count :=
  (Nat.sub_sub _ _ _).symm

end ByteBuffer

namespace Operation
variable {buffer : ByteBuffer} (memory : Memory)

theorem run_reading {reading : Reading} (fits : reading.count ≤ buffer.remaining) :
    reading.operation.run buffer memory =
      .ok (reading.operation.reply buffer memory, buffer.advance reading.count, memory) := by
  cases reading with
  | one =>
    have before := ByteBuffer.not_ended fits
    apply run_of_safe
    simp [Reading.operation, fault?, before]
  | many old =>
    have fits : old.length ≤ buffer.remaining := fits
    apply run_of_safe
    simp [Reading.operation, fault?, fits]

theorem runAll_readings {readings : List Reading}
    (fits : Reading.total readings ≤ buffer.remaining) :
    runAll buffer memory (readings.map Reading.operation) =
      .ok (Reading.replies buffer memory readings,
        buffer.advance (Reading.total readings), memory) := by
  induction readings generalizing buffer with
  | nil => rfl
  | cons reading rest ih =>
    rw [Reading.total] at fits
    have others : Reading.total rest ≤ (buffer.advance reading.count).remaining := by
      rw [ByteBuffer.remaining_advance]
      omega
    have first : reading.count ≤ buffer.remaining := by omega
    have later := runAll_cons (run_reading memory first) (ih others)
    rw [List.map_cons, later, Reading.total]
    simp only [ByteBuffer.advance, Nat.add_assoc]
    rfl

end Operation

end LinkGate
