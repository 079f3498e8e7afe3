import LinkGate.Proofs.Buffer.Aliasing
import LinkGate.Proofs.Buffer.Backing
import LinkGate.Proofs.Buffer.Sequences

/-!
# Writing, flipping, reading

A buffer that is cleared, written to, flipped and read gives back what was written, however it was
cut into pieces on either side.  What is loaded from where bytes were stored are these bytes, and
the limit that flipping leaves is where the writing ended.
-/

set_option autoImplicit false

namespace LinkGate

namespace Storage
variable (storage : Storage) (memory : Memory)

theorem bytes_store {start : Nat} {source : Bytes}
    (fits : start + source.length ≤ storage.length) :
    (storage.store memory start source).1.bytes (storage.store memory start source).2 =
      (storage.bytes memory).take start ++ source ++
        (storage.bytes memory).drop (start + source.length) := by
  have same := congrArg Prod.fst (storage.store_copied memory memory fits)
  exact (Storage.array.inj same).1.symm

theorem length_load {start count : Nat} (fits : start + count ≤ storage.length) :
    (storage.load memory start count).length = count := by
  cases storage with
  | array bytes readOnly =>
    have fits : start + count ≤ bytes.length := fits
    rw [load, List.length_take, List.length_drop]
    omega
  | native region => exact memory.length_load _ count

theorem load_store {start : Nat} {source : Bytes}
    (fits : start + source.length ≤ storage.length) :
    (storage.store memory start source).1.load (storage.store memory start source).2 start
      source.length = source := by
  have room : start + source.length ≤ (storage.store memory start source).1.length := by
    rw [length_store _ _ fits]
    exact fits
  have before : ((storage.bytes memory).take start).length = start := by
    rw [List.length_take, length_bytes]
    omega
  rw [← load_copied _ _ memory room, copied, bytes_store _ _ fits, load, List.append_assoc]
  nth_rewrite 1 [← before]
  rw [List.drop_left, List.take_left]

end Storage

/-! ## Pieces -/

namespace Reading
variable {buffer : ByteBuffer} (memory : Memory)

theorem read?_reply (ordered : buffer.Ordered) {reading : Reading}
    (fits : reading.count ≤ buffer.remaining) :
    (reading.operation.reply buffer memory).read? =
      some (buffer.storage.load memory buffer.position reading.count) := by
  cases reading with
  | one =>
    have inside := ordered.inside (ByteBuffer.not_ended fits)
    rw [count, Storage.load_one _ memory inside]
    rfl
  | many old => rfl

/-- Each call replies with as many bytes as it asks for, and together they are what one call would
load. -/
theorem exists_pieces (ordered : buffer.Ordered) {readings : List Reading}
    (fits : total readings ≤ buffer.remaining) :
    ∃ pieces : List Bytes, (replies buffer memory readings).map Reply.read? = pieces.map some ∧
      pieces.map List.length = readings.map count ∧
      pieces.flatten = buffer.storage.load memory buffer.position (total readings) := by
  induction readings generalizing buffer with
  | nil => exact ⟨[], rfl, rfl, (Storage.load_zero _ _ _).symm⟩
  | cons reading rest ih =>
    rw [total] at fits ⊢
    have first : reading.count ≤ buffer.remaining := by omega
    have others : total rest ≤ (buffer.advance reading.count).remaining := by
      rw [ByteBuffer.remaining_advance]
      omega
    have inside := Nat.le_trans (ordered.within first) ordered.limit_le_length
    obtain ⟨pieces, replied, lengths, joined⟩ := ih (ordered.advance first) others
    refine ⟨buffer.storage.load memory buffer.position reading.count :: pieces, ?_, ?_, ?_⟩
    · rw [replies, List.map_cons, replied, read?_reply memory ordered first]
      rfl
    · rw [List.map_cons, List.map_cons, lengths, Storage.length_load _ memory inside]
    · rw [List.flatten_cons, joined, Storage.load_append]
      rfl

end Reading

/-! ## There and back -/

namespace ByteBuffer
variable {buffer : ByteBuffer}

theorem Ordered.clear (ordered : buffer.Ordered) : buffer.clear.Ordered :=
  ⟨Nat.zero_le _, Nat.le_refl _, ordered.capacity_eq⟩

theorem Ordered.flip (ordered : buffer.Ordered) : buffer.flip.Ordered :=
  ⟨Nat.zero_le _, Nat.le_trans ordered.position_le ordered.limit_le, ordered.capacity_eq⟩

theorem Ordered.room_clear (ordered : buffer.Ordered) {content : Bytes}
    (fits : content.length ≤ buffer.capacity) : 0 + content.length ≤ buffer.storage.length := by
  rw [Nat.zero_add, ← ordered.capacity_eq]
  exact fits

theorem bytes_filled_clear (ordered : buffer.Ordered) (memory : Memory) {content : Bytes}
    (fits : content.length ≤ buffer.capacity) :
    (buffer.clear.filled memory content).1.storage.bytes (buffer.clear.filled memory content).2 =
      content ++ (buffer.storage.bytes memory).drop content.length := by
  have stored := buffer.storage.bytes_store memory (ordered.room_clear fits)
  rw [Nat.zero_add, List.take_zero, List.nil_append] at stored
  exact stored

/-- Flipping turns the position that writing has reached into the limit. -/
theorem remaining_flip_filled (memory : Memory) (content : Bytes) :
    (buffer.clear.filled memory content).1.flip.remaining = content.length := by
  change 0 + content.length - 0 = content.length
  rw [Nat.zero_add, Nat.sub_zero]

theorem load_flip_filled (ordered : buffer.Ordered) (memory : Memory) {content : Bytes}
    (fits : content.length ≤ buffer.capacity) :
    (buffer.clear.filled memory content).1.flip.storage.load
      (buffer.clear.filled memory content).2 0 content.length = content :=
  buffer.storage.load_store memory (ordered.room_clear fits)

/-- A buffer that is cleared and written to holds what was written and behind it what it held
before; flipped, it gives back what was written, and then nothing more. -/
theorem write_flip_read {size : Nat} (made : Made size buffer)
    (writable : buffer.readOnly = false) (memory : Memory) {writings : List Writing}
    {readings : List Reading}
    (fits : (writings.flatMap Writing.bytes).length ≤ buffer.capacity)
    (whole : Reading.total readings = (writings.flatMap Writing.bytes).length) :
    let content := writings.flatMap Writing.bytes
    ∃ written after,
      Operation.runAll buffer memory (.clear :: writings.map Writing.operation) =
        .ok (List.replicate (writings.length + 1) .done, written, after) ∧
      written.storage.bytes after = content ++ (buffer.storage.bytes memory).drop content.length ∧
      ∃ (replies : List Reply) (pieces : List Bytes) (last : ByteBuffer),
        Operation.runAll written after (.flip :: readings.map Reading.operation) =
          .ok (.done :: replies, last, after) ∧
        replies.map Reply.read? = pieces.map some ∧
        pieces.map List.length = readings.map Reading.count ∧
        pieces.flatten = content ∧
        last.storage = written.storage ∧
        last.remaining = 0 ∧
        Operation.getNext.run last after = .error (.underflow 1 0) := by
  intro content
  have ordered := made.ordered.1
  have cleared : Operation.clear.run buffer memory = .ok (.done, buffer.clear, memory) := rfl
  have wrote := Operation.runAll_writings memory ordered.clear writable fits
  let written := (buffer.clear.filled memory content).1
  let after := (buffer.clear.filled memory content).2
  have flipped : Operation.flip.run written after = .ok (.done, written.flip, after) := rfl
  have orderedFlip : written.flip.Ordered := (ordered_filled memory ordered.clear fits).flip
  have remaining : written.flip.remaining = content.length := remaining_flip_filled memory content
  have all : Reading.total readings ≤ written.flip.remaining :=
    Nat.le_of_eq (whole.trans remaining.symm)
  have read := Operation.runAll_readings after all
  obtain ⟨pieces, replied, lengths, joined⟩ := Reading.exists_pieces after orderedFlip all
  have content_eq := load_flip_filled ordered memory fits
  have nothing : (written.flip.advance (Reading.total readings)).remaining = 0 := by
    rw [remaining_advance, whole, remaining, Nat.sub_self]
  refine ⟨written, after, Operation.runAll_cons cleared wrote,
    bytes_filled_clear ordered memory fits, _, pieces, _, Operation.runAll_cons flipped read,
    replied, lengths, ?_, rfl, nothing, ?_⟩
  · rw [joined, whole]
    exact content_eq
  · exact Operation.run_of_fault after (if_pos (Nat.le_of_sub_eq_zero nothing))

theorem write_flip_read_in_pieces :
    let memory := Memory.store (fun _ => 0) 100 [1, 2, 3, 4, 5, 6]
    let narrowed := (Operation.after (.wrapPointer 100 6) memory (.setLimit 4)).1
    let buffer := (Operation.after narrowed memory (.setPosition 3)).1
    let writings : List Writing := [.many [7, 8], .many [], .one 9, .many [10]]
    let readings : List Reading := [.one, .many [0, 0, 0], .many []]
    Made 6 buffer ∧ buffer.readOnly = false ∧ buffer.position = 3 ∧
      ∃ written after,
        Operation.runAll buffer memory (.clear :: writings.map Writing.operation) =
          .ok (List.replicate 5 .done, written, after) ∧
        written.storage.bytes after = [7, 8, 9, 10, 5, 6] ∧
        ∃ (replies : List Reply) (pieces : List Bytes) (last : ByteBuffer),
          Operation.runAll written after (.flip :: readings.map Reading.operation) =
            .ok (.done :: replies, last, after) ∧
          replies.map Reply.read? = pieces.map some ∧
          pieces.map List.length = [1, 3, 0] ∧
          pieces.flatten = [7, 8, 9, 10] ∧
          last.storage = written.storage ∧
          last.remaining = 0 ∧
          Operation.getNext.run last after = .error (.underflow 1 0) := by
  intro memory narrowed buffer writings readings
  have made : Made 6 buffer :=
    ((Made.wrapPointer 100 (by decide)).operate _ _).operate _ _
  have behind : (buffer.storage.bytes memory).drop 4 = [5, 6] := by decide
  obtain ⟨written, after, wrote, bytes, read⟩ :=
    @write_flip_read buffer 6 made rfl memory writings readings (by decide) (by decide)
  exact ⟨made, rfl, rfl, written, after, wrote, bytes.trans (congrArg ([7, 8, 9, 10] ++ ·) behind),
    read⟩

end ByteBuffer

end LinkGate
