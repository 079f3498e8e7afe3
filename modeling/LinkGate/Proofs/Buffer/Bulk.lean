import LinkGate.Proofs.Buffer.Sequences
import LinkGate.Proofs.Lists

/-!
# Bulk, relative and absolute access

There are three ways to the bytes of a buffer: many at once from the position on, one at the
position after the other, and one after the other by index.  They store and load the same, and they
fail together, because each has to stay below the limit.
-/

set_option autoImplicit false

namespace LinkGate

/-! ## One byte after the other -/

namespace Reading

theorem total_ones (count : Nat) : total (List.replicate count .one) = count := by
  induction count with
  | zero => rfl
  | succ count ih => rw [List.replicate_succ, total, ih, Reading.count, Nat.add_comm]

theorem replies_ones {buffer : ByteBuffer} (memory : Memory) (ordered : buffer.Ordered)
    {count : Nat} (fits : count ≤ buffer.remaining) :
    replies buffer memory (List.replicate count .one) =
      (buffer.storage.load memory buffer.position count).map .byte := by
  induction count generalizing buffer with
  | zero =>
    rw [Storage.load_zero]
    rfl
  | succ count ih =>
    have one : 1 ≤ buffer.remaining := Nat.le_of_add_left_le fits
    have first := buffer.storage.load_one memory (ordered.inside (ByteBuffer.not_ended one))
    have others : count ≤ (buffer.advance 1).remaining := by
      rw [ByteBuffer.remaining_advance]
      omega
    have rest := ih (ordered.advance one) others
    rw [List.replicate_succ, Nat.add_comm count, Storage.load_append, first, List.map_append]
    exact congrArg (_ :: ·) rest

end Reading

namespace Operation

/-- Stores bytes one after another, by index. -/
def putEach (start : Nat) (source : Bytes) : List Operation :=
  source.mapIdx fun offset value => .put (start + offset) value

/-- Reads bytes one after another, by index. -/
def getEach (start count : Nat) : List Operation :=
  (List.range count).map fun offset => .get (start + offset)

theorem putEach_cons (start : Nat) (value : UInt8) (rest : Bytes) :
    putEach start (value :: rest) = .put start value :: putEach (start + 1) rest := by
  simp [putEach, Nat.add_assoc, Nat.add_comm 1]

theorem putEach_append (start : Nat) (front back : Bytes) :
    putEach start (front ++ back) =
      putEach start front ++ putEach (start + front.length) back := by
  simp [putEach, List.mapIdx_append, Nat.add_comm, Nat.add_left_comm]

theorem getEach_add (start first second : Nat) :
    getEach start (first + second) = getEach start first ++ getEach (start + first) second := by
  simp [getEach, List.range_add, Function.comp_def, Nat.add_assoc]

theorem getEach_succ (start count : Nat) :
    getEach start (count + 1) = .get start :: getEach (start + 1) count := by
  rw [Nat.add_comm, getEach_add]
  rfl

variable {buffer : ByteBuffer} (memory : Memory) (ordered : buffer.Ordered)
include ordered

theorem runAll_putNext (writable : buffer.readOnly = false) {source : Bytes}
    (fits : source.length ≤ buffer.remaining) :
    runAll buffer memory (source.map .putNext) =
      .ok (List.replicate source.length .done, buffer.filled memory source) := by
  have bytes : (source.map Writing.one).flatMap Writing.bytes = source := by
    simp [List.flatMap_map, Writing.bytes]
  have ran := runAll_writings memory ordered writable (bytes.symm ▸ fits)
  rw [bytes, List.length_map, List.map_map] at ran
  exact ran

theorem runAll_getNext {count : Nat} (fits : count ≤ buffer.remaining) :
    runAll buffer memory (List.replicate count .getNext) =
      .ok ((buffer.storage.load memory buffer.position count).map .byte,
        buffer.advance count, memory) := by
  have total := Reading.total_ones count
  have ran := runAll_readings memory (total.symm ▸ fits)
  rw [total, List.map_replicate] at ran
  rw [← Reading.replies_ones memory ordered fits]
  exact ran

theorem runAll_putEach (writable : buffer.readOnly = false) (start : Nat) {source : Bytes}
    (fits : start + source.length ≤ buffer.limit) :
    runAll buffer memory (putEach start source) =
      .ok (List.replicate source.length .done, buffer.store memory start source) := by
  induction source generalizing buffer memory start with
  | nil =>
    simp only [ByteBuffer.store, Storage.store_nil]
    rfl
  | cons value rest ih =>
    rw [List.length_cons] at fits
    have before : ¬buffer.limit ≤ start := by omega
    have safe : (put start value).fault? buffer = none := by simp [fault?, writable, before]
    have fits' : start + 1 + rest.length ≤ buffer.limit := by omega
    have writable' : (next buffer memory (put start value)).readOnly = false :=
      (readOnly_next memory).trans writable
    have later := ih (buffer.store memory start [value]).2 (ordered_next ordered memory safe)
      writable' (start + 1) fits'
    have room : start + [value].length ≤ buffer.storage.length := ordered.inside before
    have stored := buffer.storage.store_append memory room rest
    rw [putEach_cons, runAll_cons (run_of_safe memory safe) later]
    simp only [ByteBuffer.store, List.singleton_append] at stored ⊢
    rw [stored]
    rfl

theorem runAll_getEach (start : Nat) {count : Nat} (fits : start + count ≤ buffer.limit) :
    runAll buffer memory (getEach start count) =
      .ok ((buffer.storage.load memory start count).map .byte, buffer, memory) := by
  induction count generalizing start with
  | zero =>
    rw [Storage.load_zero]
    rfl
  | succ count ih =>
    have before : ¬buffer.limit ≤ start := by omega
    have safe : (get start).fault? buffer = none := by simp [fault?, before]
    have later := ih (start + 1) (by omega)
    have first := buffer.storage.load_one memory (ordered.inside before)
    rw [getEach_succ, Nat.add_comm count, Storage.load_append, first]
    exact runAll_cons (run_of_safe memory safe) later

/-- The position that the calls by index leave where it was is moved at the end. -/
theorem runAll_putEach_moved (writable : buffer.readOnly = false) {source : Bytes}
    (fits : source.length ≤ buffer.remaining) :
    runAll buffer memory (putEach buffer.position source ++
        [.setPosition (buffer.position + source.length)]) =
      .ok (List.replicate (source.length + 1) .done, buffer.filled memory source) := by
  have within := ordered.within fits
  have ran := runAll_putEach memory ordered writable buffer.position within
  have safe : (setPosition (buffer.position + source.length)).fault?
      (buffer.store memory buffer.position source).1 = none :=
    if_neg (Nat.not_lt.mpr within)
  rw [List.replicate_succ']
  exact runAll_append ran (runAll_cons (run_of_safe _ safe) rfl)

theorem runAll_getEach_moved {count : Nat} (fits : count ≤ buffer.remaining) :
    runAll buffer memory (getEach buffer.position count ++
        [.setPosition (buffer.position + count)]) =
      .ok ((buffer.storage.load memory buffer.position count).map .byte ++ [.done],
        buffer.advance count, memory) := by
  have within := ordered.within fits
  have ran := runAll_getEach memory ordered buffer.position within
  have safe : (setPosition (buffer.position + count)).fault? buffer = none :=
    if_neg (Nat.not_lt.mpr within)
  exact runAll_append ran (runAll_cons (run_of_safe _ safe) rfl)

end Operation

/-! ## Where the sequences fail -/

namespace Operation
variable {buffer : ByteBuffer} (memory : Memory)

theorem runAll_refused (refused : buffer.readOnly = true) {operation : Operation}
    {write : Nat × Bytes} (writes : operation.written? buffer = some write)
    (rest : List Operation) : runAll buffer memory (operation :: rest) = .error .readOnly := by
  rw [runAll, run_of_fault memory (fault?_readOnly refused writes)]
  rfl

variable (ordered : buffer.Ordered)
include ordered

theorem runAll_putNext_full (writable : buffer.readOnly = false) {source : Bytes}
    (more : buffer.remaining < source.length) :
    runAll buffer memory (source.map .putNext) = .error (.overflow 1 0) := by
  obtain ⟨front, value, back, rfl, length⟩ := exists_split more
  have ran := runAll_putNext memory ordered writable (Nat.le_of_eq length)
  have full : buffer.limit ≤ buffer.position + front.length := by
    rw [length, ByteBuffer.remaining]
    omega
  have writable' := (ByteBuffer.readOnly_filled memory front).trans writable
  have failing : (putNext value).fault? (buffer.filled memory front).1 = some (.overflow 1 0) :=
    (if_neg (by simp [writable'])).trans (if_pos full)
  rw [List.map_append, List.map_cons]
  exact runAll_fails ran (run_of_fault _ failing)

theorem runAll_putEach_full (writable : buffer.readOnly = false) {source : Bytes}
    (more : buffer.remaining < source.length) (rest : List Operation) :
    runAll buffer memory (putEach buffer.position source ++ rest) =
      .error (.indexOutOfBounds buffer.limit buffer.limit) := by
  obtain ⟨front, value, back, rfl, length⟩ := exists_split more
  have limit : buffer.position + front.length = buffer.limit := by
    rw [length, Nat.add_comm]
    exact Nat.sub_add_cancel ordered.position_le
  have ran := runAll_putEach memory ordered writable buffer.position (Nat.le_of_eq limit)
  have writable' := (ByteBuffer.readOnly_store memory buffer.position front).trans writable
  have failing : (put buffer.limit value).fault? (buffer.store memory buffer.position front).1 =
      some (.indexOutOfBounds buffer.limit buffer.limit) :=
    (if_neg (by simp [writable'])).trans (if_pos (Nat.le_refl _))
  rw [putEach_append, putEach_cons, limit, List.append_assoc]
  exact runAll_fails ran (run_of_fault _ failing)

theorem runAll_getNext_empty {count : Nat} (more : buffer.remaining < count) :
    runAll buffer memory (List.replicate count .getNext) = .error (.underflow 1 0) := by
  obtain ⟨beyond, rfl⟩ := Nat.exists_eq_add_of_lt more
  have ran := runAll_getNext memory ordered (Nat.le_refl buffer.remaining)
  have empty : buffer.limit ≤ (buffer.advance buffer.remaining).position := by
    change buffer.limit ≤ buffer.position + (buffer.limit - buffer.position)
    omega
  have failing : getNext.fault? (buffer.advance buffer.remaining) = some (.underflow 1 0) :=
    if_pos empty
  rw [Nat.add_assoc, List.replicate_add, List.replicate_succ]
  exact runAll_fails ran (run_of_fault _ failing)

theorem runAll_getEach_empty {count : Nat} (more : buffer.remaining < count) :
    runAll buffer memory (getEach buffer.position count) =
      .error (.indexOutOfBounds buffer.limit buffer.limit) := by
  obtain ⟨beyond, rfl⟩ := Nat.exists_eq_add_of_lt more
  have limit : buffer.position + buffer.remaining = buffer.limit :=
    Nat.add_sub_cancel' ordered.position_le
  have ran := runAll_getEach memory ordered buffer.position (Nat.le_of_eq limit)
  have failing : (get buffer.limit).fault? buffer =
      some (.indexOutOfBounds buffer.limit buffer.limit) :=
    if_pos (Nat.le_refl _)
  rw [Nat.add_assoc, getEach_add, getEach_succ, limit]
  exact runAll_fails ran (run_of_fault _ failing)

end Operation

/-- Bytes cannot be written from the position on. -/
def ByteBuffer.Refuses (buffer : ByteBuffer) (source : Bytes) : Prop :=
  buffer.readOnly = true ∨ buffer.remaining < source.length

namespace ByteBuffer
variable {buffer : ByteBuffer} {source : Bytes}

/-- What fails on a buffer that refuses writes and on one that is too full, and on no other. -/
theorem error_iff_refuses {α : Type} {x : Except BufferError α}
    (barred : buffer.readOnly = true → ∃ error, x = .error error)
    (full : buffer.readOnly = false → buffer.remaining < source.length → ∃ error, x = .error error)
    (ends : buffer.readOnly = false → source.length ≤ buffer.remaining → ∃ a, x = .ok a) :
    (∃ error, x = .error error) ↔ buffer.Refuses source := by
  refine exists_error_iff (fun refused => ?_) fun allowed => ?_
  · cases readOnly : buffer.readOnly with
    | true => exact barred readOnly
    | false =>
      have more : buffer.remaining < source.length := by simpa [Refuses, readOnly] using refused
      exact full readOnly more
  · rw [Refuses, not_or, Bool.not_eq_true, Nat.not_lt] at allowed
    exact ends allowed.1 allowed.2

end ByteBuffer

namespace Operation
variable {buffer : ByteBuffer} (memory : Memory)

theorem putBytes_ends_iff (source : Bytes) :
    (∃ result, (putBytes source).run buffer memory = .ok result) ↔
      buffer.readOnly = false ∧ source.length ≤ buffer.remaining := by
  rw [run_ends_iff, fault?]
  cases buffer.readOnly with
  | true => simp
  | false => simp

theorem getBytes_ends_iff (old : Bytes) :
    (∃ result, (getBytes old).run buffer memory = .ok result) ↔
      old.length ≤ buffer.remaining := by
  rw [run_ends_iff]
  simp [fault?]

theorem putBytes_fails_iff (source : Bytes) :
    (∃ error, (putBytes source).run buffer memory = .error error) ↔ buffer.Refuses source := by
  rw [run_fails_iff, fault?, ByteBuffer.Refuses]
  cases buffer.readOnly with
  | true => simp
  | false => simp

theorem getBytes_fails_iff (old : Bytes) :
    (∃ error, (getBytes old).run buffer memory = .error error) ↔
      buffer.remaining < old.length := by
  simp [run_fails_iff, fault?]

variable (ordered : buffer.Ordered)
include ordered

theorem putNext_fails_iff {source : Bytes} (nonempty : source ≠ []) :
    (∃ error, runAll buffer memory (source.map .putNext) = .error error) ↔
      buffer.Refuses source := by
  apply ByteBuffer.error_iff_refuses
  · intro refused
    obtain ⟨value, rest, rfl⟩ := List.exists_cons_of_ne_nil nonempty
    exact ⟨_, runAll_refused memory refused rfl _⟩
  · intro writable more
    exact ⟨_, runAll_putNext_full memory ordered writable more⟩
  · intro writable fits
    exact ⟨_, runAll_putNext memory ordered writable fits⟩

theorem putEach_fails_iff {source : Bytes} (nonempty : source ≠ []) :
    (∃ error, runAll buffer memory (putEach buffer.position source ++
        [.setPosition (buffer.position + source.length)]) = .error error) ↔
      buffer.Refuses source := by
  apply ByteBuffer.error_iff_refuses
  · intro refused
    obtain ⟨value, rest, rfl⟩ := List.exists_cons_of_ne_nil nonempty
    rw [putEach_cons]
    exact ⟨_, runAll_refused memory refused rfl _⟩
  · intro writable more
    exact ⟨_, runAll_putEach_full memory ordered writable more _⟩
  · intro writable fits
    exact ⟨_, runAll_putEach_moved memory ordered writable fits⟩

theorem getNext_fails_iff (count : Nat) :
    (∃ error, runAll buffer memory (List.replicate count .getNext) = .error error) ↔
      buffer.remaining < count := by
  refine exists_error_iff (fun more => ?_) fun fits => ?_
  · exact ⟨_, runAll_getNext_empty memory ordered more⟩
  · exact ⟨_, runAll_getNext memory ordered (Nat.le_of_not_lt fits)⟩

theorem getEach_fails_iff (count : Nat) :
    (∃ error, runAll buffer memory (getEach buffer.position count) = .error error) ↔
      buffer.remaining < count := by
  refine exists_error_iff (fun more => ?_) fun fits => ?_
  · exact ⟨_, runAll_getEach_empty memory ordered more⟩
  · have within := ordered.within (Nat.le_of_not_lt fits)
    exact ⟨_, runAll_getEach memory ordered buffer.position within⟩

end Operation

/-! ## Agreement -/

namespace Operation

/-- Bulk access does what relative access does byte by byte, and what absolute access does with the
position moved after it.  Absolute access alone leaves the position where it was. -/
structure AccessesAgree (buffer : ByteBuffer) (memory : Memory) : Prop where
  writes : ∀ source, (∃ result, (putBytes source).run buffer memory = .ok result) ↔
    buffer.readOnly = false ∧ source.length ≤ buffer.remaining
  reads : ∀ old, (∃ result, (getBytes old).run buffer memory = .ok result) ↔
    old.length ≤ buffer.remaining
  write : ∀ source reply next after,
    (putBytes source).run buffer memory = .ok (reply, next, after) →
      runAll buffer memory (source.map .putNext) =
          .ok (List.replicate source.length .done, next, after) ∧
        runAll buffer memory (putEach buffer.position source ++
            [.setPosition (buffer.position + source.length)]) =
          .ok (List.replicate (source.length + 1) .done, next, after)
  read : ∀ old reply next after,
    (getBytes old).run buffer memory = .ok (reply, next, after) →
      ∃ bytes, reply = .bytes bytes ∧
        runAll buffer memory (List.replicate old.length .getNext) =
          .ok (bytes.map .byte, next, after) ∧
        runAll buffer memory (getEach buffer.position old.length) =
          .ok (bytes.map .byte, buffer, memory) ∧
        runAll buffer memory (getEach buffer.position old.length ++
            [.setPosition (buffer.position + old.length)]) =
          .ok (bytes.map .byte ++ [.done], next, after)
  /-- Writing nothing in bulk still asks whether the buffer refuses writes. -/
  write_fails : ∀ source, source ≠ [] →
    ((∃ error, (putBytes source).run buffer memory = .error error) ↔
        ∃ error, runAll buffer memory (source.map .putNext) = .error error) ∧
      ((∃ error, (putBytes source).run buffer memory = .error error) ↔
        ∃ error, runAll buffer memory (putEach buffer.position source ++
          [.setPosition (buffer.position + source.length)]) = .error error)
  read_fails : ∀ old,
    ((∃ error, (getBytes old).run buffer memory = .error error) ↔
        ∃ error, runAll buffer memory (List.replicate old.length .getNext) = .error error) ∧
      ((∃ error, (getBytes old).run buffer memory = .error error) ↔
        ∃ error, runAll buffer memory (getEach buffer.position old.length) = .error error)

/-- On every buffer that can come about, the three ways to its bytes agree: in what they store and
load, in the state that they leave, and in whether they fail. -/
theorem accesses_agree {size : Nat} {buffer : ByteBuffer} (made : ByteBuffer.Made size buffer)
    (memory : Memory) : AccessesAgree buffer memory := by
  have ordered := made.ordered.1
  refine ⟨putBytes_ends_iff memory, getBytes_ends_iff memory, ?_, ?_, ?_, ?_⟩
  · intro source reply next after ran
    obtain ⟨writable, fits⟩ := (putBytes_ends_iff memory source).mp ⟨_, ran⟩
    have whole : (putBytes source).run buffer memory = .ok (.done, buffer.filled memory source) :=
      @run_writing buffer memory writable (.many source) fits
    cases whole.symm.trans ran
    exact ⟨runAll_putNext memory ordered writable fits,
      runAll_putEach_moved memory ordered writable fits⟩
  · intro old reply next after ran
    have fits := (getBytes_ends_iff memory old).mp ⟨_, ran⟩
    have whole := @run_reading buffer memory (.many old) fits
    cases whole.symm.trans ran
    exact ⟨_, rfl, runAll_getNext memory ordered fits,
      runAll_getEach memory ordered buffer.position (ordered.within fits),
      runAll_getEach_moved memory ordered fits⟩
  · intro source nonempty
    have bulk := @putBytes_fails_iff buffer memory source
    exact ⟨bulk.trans (putNext_fails_iff memory ordered nonempty).symm,
      bulk.trans (putEach_fails_iff memory ordered nonempty).symm⟩
  · intro old
    have bulk := @getBytes_fails_iff buffer memory old
    exact ⟨bulk.trans (getNext_fails_iff memory ordered old.length).symm,
      bulk.trans (getEach_fails_iff memory ordered old.length).symm⟩

theorem accesses_agree_midway :
    let memory := Memory.store (fun _ => 0) 100 [1, 2, 3, 4, 5, 6]
    let narrowed := (Operation.after (.wrapPointer 100 6) memory (.setLimit 5)).1
    let buffer := (Operation.after narrowed memory (.setPosition 2)).1
    ByteBuffer.Made 6 buffer ∧ AccessesAgree buffer memory ∧
      (Operation.after buffer memory (.putBytes [7, 8, 9])).2.load 100 6 = [1, 2, 7, 8, 9, 6] ∧
      (putBytes [7, 8, 9, 10]).fault? buffer = some (.overflow 4 3) := by
  intro memory narrowed buffer
  have made : ByteBuffer.Made 6 buffer :=
    ((ByteBuffer.Made.wrapPointer 100 (by decide)).operate _ _).operate _ _
  exact ⟨made, accesses_agree made memory, by decide, by decide⟩

end Operation

end LinkGate
