import LinkGate.Proofs.Buffer.Session

/-!
# Failing operations

When an operation fails, with what error, and what it has done by then.  `Denies` gives the rules.
The operations of a buffer return nothing new when they fail, so that they leave no trace of the way
there; a `Routine` does what they do step by step, on a machine that keeps whatever was done before
a failure.  Nothing ever was.
-/

set_option autoImplicit false

namespace LinkGate

/-- The buffer denies an operation, and says why.  To write to a buffer that refuses writes is
denied for that reason alone, however much would be written, and wherever. -/
inductive ByteBuffer.Denies (buffer : ByteBuffer) : Operation → BufferError → Prop where
  | setPosition {position : Nat} (beyond : buffer.limit < position) :
    Denies buffer (.setPosition position) (.invalidPosition position buffer.limit)
  | setLimit {limit : Nat} (beyond : buffer.capacity < limit) :
    Denies buffer (.setLimit limit) (.invalidLimit limit buffer.capacity)
  | get {index : Nat} (beyond : buffer.limit ≤ index) :
    Denies buffer (.get index) (.indexOutOfBounds index buffer.limit)
  | getNext (ended : buffer.position = buffer.limit) :
    Denies buffer .getNext (.underflow 1 buffer.remaining)
  | getBytes {old : Bytes} (short : buffer.remaining < old.length) :
    Denies buffer (.getBytes old) (.underflow old.length buffer.remaining)
  | write {operation : Operation} {written : Nat × Bytes}
    (writes : operation.written? buffer = some written) (refused : buffer.readOnly = true) :
    Denies buffer operation .readOnly
  | put {index : Nat} {value : UInt8} (writable : buffer.readOnly = false)
    (beyond : buffer.limit ≤ index) :
    Denies buffer (.put index value) (.indexOutOfBounds index buffer.limit)
  | putNext {value : UInt8} (writable : buffer.readOnly = false)
    (ended : buffer.position = buffer.limit) :
    Denies buffer (.putNext value) (.overflow 1 buffer.remaining)
  | putBytes {source : Bytes} (writable : buffer.readOnly = false)
    (short : buffer.remaining < source.length) :
    Denies buffer (.putBytes source) (.overflow source.length buffer.remaining)

namespace ByteBuffer
variable {buffer : ByteBuffer} {operation : Operation} {error : BufferError}

theorem Ordered.ended_iff (ordered : buffer.Ordered) :
    buffer.limit ≤ buffer.position ↔ buffer.position = buffer.limit := by
  have inOrder := ordered.position_le
  omega

theorem remaining_ended (ended : buffer.position = buffer.limit) : buffer.remaining = 0 := by
  rw [remaining, ended, Nat.sub_self]

theorem Denies.fault? (denies : buffer.Denies operation error) (ordered : buffer.Ordered) :
    operation.fault? buffer = some error := by
  cases denies with
  | setPosition beyond | setLimit beyond | get beyond | getBytes beyond => exact if_pos beyond
  | getNext ended =>
    rw [Operation.fault?, if_pos (ordered.ended_iff.mpr ended), remaining_ended ended]
  | write writes refused => exact Operation.fault?_readOnly refused writes
  | put writable beyond => rw [Operation.fault?, if_neg (by simp [writable]), if_pos beyond]
  | putNext writable ended =>
    rw [Operation.fault?, if_neg (by simp [writable]), if_pos (ordered.ended_iff.mpr ended),
      remaining_ended ended]
  | putBytes writable short => rw [Operation.fault?, if_neg (by simp [writable]), if_pos short]

theorem denies_of_fault? (ordered : buffer.Ordered) (fault : operation.fault? buffer = some error) :
    buffer.Denies operation error := by
  by_cases barred : buffer.readOnly = true ∧ operation.written? buffer ≠ none
  · obtain ⟨refused, writes⟩ := barred
    obtain ⟨written, writes⟩ := Option.ne_none_iff_exists'.mp writes
    rw [Operation.fault?_readOnly refused writes] at fault
    cases fault
    exact .write writes refused
  -- What is left are the bounds, which the three writes check behind the flag.
  have writable {written : Nat × Bytes} (writes : operation.written? buffer = some written) :
      buffer.readOnly = false := by
    simpa [writes] using barred
  cases operation with
  | setPosition position =>
    obtain ⟨beyond, ⟨⟩⟩ := Option.ite_none_right_eq_some.mp fault
    exact .setPosition beyond
  | setLimit limit =>
    obtain ⟨beyond, ⟨⟩⟩ := Option.ite_none_right_eq_some.mp fault
    exact .setLimit beyond
  | clear | flip | ownBytes => cases fault
  | get index =>
    obtain ⟨beyond, ⟨⟩⟩ := Option.ite_none_right_eq_some.mp fault
    exact .get beyond
  | getNext =>
    obtain ⟨beyond, ⟨⟩⟩ := Option.ite_none_right_eq_some.mp fault
    have ended := ordered.ended_iff.mp beyond
    exact remaining_ended ended ▸ .getNext ended
  | getBytes old =>
    obtain ⟨short, ⟨⟩⟩ := Option.ite_none_right_eq_some.mp fault
    exact .getBytes short
  | put index value =>
    rw [Operation.fault?, if_neg (by simp [writable rfl])] at fault
    obtain ⟨beyond, ⟨⟩⟩ := Option.ite_none_right_eq_some.mp fault
    exact .put (writable rfl) beyond
  | putNext value =>
    rw [Operation.fault?, if_neg (by simp [writable rfl])] at fault
    obtain ⟨beyond, ⟨⟩⟩ := Option.ite_none_right_eq_some.mp fault
    have ended := ordered.ended_iff.mp beyond
    exact remaining_ended ended ▸ .putNext (writable rfl) ended
  | putBytes source =>
    rw [Operation.fault?, if_neg (by simp [writable rfl])] at fault
    obtain ⟨short, ⟨⟩⟩ := Option.ite_none_right_eq_some.mp fault
    exact .putBytes (writable rfl) short

theorem denies_iff (ordered : buffer.Ordered) :
    buffer.Denies operation error ↔ operation.fault? buffer = some error :=
  ⟨fun denies => denies.fault? ordered, denies_of_fault? ordered⟩

end ByteBuffer

/-- All that an operation can change. -/
structure Machine where
  buffer : ByteBuffer
  memory : Memory
  /-- What the destination of a read holds. -/
  destination : Bytes

/-- A program for a machine.  What it has done when it fails stays done. -/
def Routine (α : Type) :=
  Machine → Except BufferError α × Machine

namespace Routine

instance : Monad Routine where
  pure value machine := (.ok value, machine)
  bind first next machine :=
    match first machine with
    | (.error error, left) => (.error error, left)
    | (.ok value, left) => next value left

def now : Routine Machine := fun machine =>
  (.ok machine, machine)

def change (alter : Machine → Machine) : Routine Unit := fun machine =>
  (.ok (), alter machine)

def moveTo (position : Nat) : Routine Unit :=
  change fun machine => { machine with buffer := { machine.buffer with position := position } }

def limitTo (limit : Nat) : Routine Unit :=
  change fun machine => { machine with buffer := { machine.buffer with limit := limit } }

def fill (bytes : Bytes) : Routine Unit :=
  change fun machine => { machine with destination := bytes }

def store (start : Nat) (source : Bytes) : Routine Unit :=
  change fun machine =>
    let (buffer, memory) := machine.buffer.store machine.memory start source
    { machine with buffer := buffer, memory := memory }

section Refusals
variable (condition : Machine → Prop) [DecidablePred condition]

def refuse (error : Machine → BufferError) : Routine Unit := fun machine =>
  (if condition machine then .error (error machine) else .ok (), machine)

theorem refuse_bind {α : Type} (error : Machine → BufferError) (body : Unit → Routine α)
    (machine : Machine) :
    (refuse condition error >>= body) machine =
      if condition machine then (.error (error machine), machine) else body () machine := by
  simp only [bind, refuse]
  by_cases refused : condition machine
  · rw [if_pos refused, if_pos refused]
  · rw [if_neg refused, if_neg refused]

end Refusals

def checkIndex (index : Nat) : Routine Unit :=
  refuse (·.buffer.limit ≤ index) (.indexOutOfBounds index ·.buffer.limit)

def checkWritable : Routine Unit :=
  refuse (·.buffer.readOnly) fun _ => .readOnly

def setPosition (position : Nat) : Routine Unit := do
  refuse (·.buffer.limit < position) (.invalidPosition position ·.buffer.limit)
  moveTo position

def setLimit (limit : Nat) : Routine Unit := do
  refuse (·.buffer.capacity < limit) (.invalidLimit limit ·.buffer.capacity)
  limitTo limit
  moveTo (min (← now).buffer.position limit)

def clear : Routine Unit := do
  moveTo 0
  limitTo (← now).buffer.capacity

def flip : Routine Unit := do
  limitTo (← now).buffer.position
  moveTo 0

def get (index : Nat) : Routine UInt8 := do
  checkIndex index
  let machine ← now
  return machine.buffer.storage.byteAt machine.memory index

def put (index : Nat) (value : UInt8) : Routine Unit := do
  checkWritable
  checkIndex index
  store index [value]

def getNext : Routine UInt8 := do
  refuse (fun machine => machine.buffer.limit ≤ machine.buffer.position) fun _ => .underflow 1 0
  let value ← get (← now).buffer.position
  moveTo ((← now).buffer.position + 1)
  return value

def putNext (value : UInt8) : Routine Unit := do
  checkWritable
  refuse (fun machine => machine.buffer.limit ≤ machine.buffer.position) fun _ => .overflow 1 0
  put (← now).buffer.position value
  moveTo ((← now).buffer.position + 1)

def getBytes : Routine Unit := do
  refuse (fun machine => machine.buffer.remaining < machine.destination.length) fun machine =>
    .underflow machine.destination.length machine.buffer.remaining
  let machine ← now
  fill (machine.buffer.storage.load machine.memory machine.buffer.position
    machine.destination.length)
  moveTo (machine.buffer.position + machine.destination.length)

def putBytes (source : Bytes) : Routine Unit := do
  checkWritable
  refuse (·.buffer.remaining < source.length) (.overflow source.length ·.buffer.remaining)
  store (← now).buffer.position source
  moveTo ((← now).buffer.position + source.length)

/-- Where a routine leaves its machine, if it does nothing before it can fail. -/
def settle {α : Type} (machine : Machine) :
    Except BufferError (α × Machine) → Except BufferError α × Machine
  | .error error => (.error error, machine)
  | .ok (value, next) => (.ok value, next)

section
variable (machine : Machine)

theorem setPosition_eq (position : Nat) :
    setPosition position machine =
      settle machine ((machine.buffer.setPosition position).map fun buffer =>
        ((), { machine with buffer := buffer })) := by
  rw [setPosition, refuse_bind, ByteBuffer.setPosition]
  split <;> rfl

theorem setLimit_eq (limit : Nat) :
    setLimit limit machine =
      settle machine ((machine.buffer.setLimit limit).map fun buffer =>
        ((), { machine with buffer := buffer })) := by
  rw [setLimit, refuse_bind, ByteBuffer.setLimit]
  split <;> rfl

theorem get_eq (index : Nat) :
    get index machine =
      settle machine ((machine.buffer.get machine.memory index).map fun value =>
        (value, machine)) := by
  rw [get, checkIndex, refuse_bind, ByteBuffer.get]
  split <;> rfl

theorem put_eq (index : Nat) (value : UInt8) :
    put index value machine =
      settle machine ((machine.buffer.put machine.memory index value).map fun (buffer, memory) =>
        ((), { machine with buffer := buffer, memory := memory })) := by
  rw [put, checkWritable, checkIndex, refuse_bind, refuse_bind, ByteBuffer.put]
  split
  · rfl
  · split <;> rfl

theorem getNext_eq :
    getNext machine =
      settle machine ((machine.buffer.getNext machine.memory).map fun (value, buffer) =>
        (value, { machine with buffer := buffer })) := by
  rw [getNext, refuse_bind, ByteBuffer.getNext]
  split
  · rfl
  · simp only [bind, now, get_eq]
    cases machine.buffer.get machine.memory machine.buffer.position <;> rfl

theorem putNext_eq (value : UInt8) :
    putNext value machine =
      settle machine ((machine.buffer.putNext machine.memory value).map fun (buffer, memory) =>
        ((), { machine with buffer := buffer, memory := memory })) := by
  rw [putNext, checkWritable, refuse_bind, refuse_bind, ByteBuffer.putNext]
  split
  · rfl
  · split
    · rfl
    · simp only [bind, now, put_eq]
      cases machine.buffer.put machine.memory machine.buffer.position value <;> rfl

theorem getBytes_eq :
    getBytes machine =
      settle machine ((machine.buffer.getBytes machine.memory machine.destination.length).map
        fun (bytes, buffer) => ((), { machine with buffer := buffer, destination := bytes })) := by
  rw [getBytes, refuse_bind, ByteBuffer.getBytes]
  split <;> rfl

theorem putBytes_eq (source : Bytes) :
    putBytes source machine =
      settle machine ((machine.buffer.putBytes machine.memory source).map fun (buffer, memory) =>
        ((), { machine with buffer := buffer, memory := memory })) := by
  rw [putBytes, checkWritable, refuse_bind, refuse_bind, ByteBuffer.putBytes]
  split
  · rfl
  · split <;> rfl

end

end Routine

namespace Operation

/-- What the destination holds when an operation starts; only one of them has a destination. -/
def held : Operation → Bytes
  | getBytes old => old
  | _ => []

def start (operation : Operation) (buffer : ByteBuffer) (memory : Memory) : Machine :=
  ⟨buffer, memory, operation.held⟩

def routine : Operation → Routine Reply
  | setPosition position => do
    Routine.setPosition position
    return .done
  | setLimit limit => do
    Routine.setLimit limit
    return .done
  | clear => do
    Routine.clear
    return .done
  | flip => do
    Routine.flip
    return .done
  | get index => return .byte (← Routine.get index)
  | put index value => do
    Routine.put index value
    return .done
  | getNext => return .byte (← Routine.getNext)
  | putNext value => do
    Routine.putNext value
    return .done
  | getBytes _ => do
    Routine.getBytes
    return .bytes (← Routine.now).destination
  | putBytes source => do
    Routine.putBytes source
    return .done
  | ownBytes => return .ownBytes (← Routine.now).buffer.ownBytes?

/-- An operation does what its routine does, and the routine does nothing before it fails. -/
theorem routine_eq (operation : Operation) (buffer : ByteBuffer) (memory : Memory) :
    operation.routine (operation.start buffer memory) =
      Routine.settle (operation.start buffer memory)
        ((operation.run buffer memory).map fun (reply, buffer, memory) =>
          let destination := operation.destination? (.ok reply : Except Empty _)
          (reply, ⟨buffer, memory, destination.getD []⟩)) := by
  cases operation with
  | setPosition position =>
    simp only [routine, bind, Routine.setPosition_eq, run, start]
    cases buffer.setPosition position <;> rfl
  | setLimit limit =>
    simp only [routine, bind, Routine.setLimit_eq, run, start]
    cases buffer.setLimit limit <;> rfl
  | clear | flip | ownBytes => rfl
  | get index =>
    simp only [routine, bind, Routine.get_eq, run, start]
    cases buffer.get memory index <;> rfl
  | put index value =>
    simp only [routine, bind, Routine.put_eq, run, start]
    cases buffer.put memory index value <;> rfl
  | getNext =>
    simp only [routine, bind, Routine.getNext_eq, run, start]
    cases buffer.getNext memory <;> rfl
  | putNext value =>
    simp only [routine, bind, Routine.putNext_eq, run, start]
    cases buffer.putNext memory value <;> rfl
  | getBytes old =>
    simp only [routine, bind, Routine.getBytes_eq, run, start, held]
    cases buffer.getBytes memory old.length <;> rfl
  | putBytes source =>
    simp only [routine, bind, Routine.putBytes_eq, run, start]
    cases buffer.putBytes memory source <;> rfl

end Operation

namespace Session

/-- How an operation on the buffer of a name ends. -/
structure FailsCleanly (session : Session) (name : String) (buffer : ByteBuffer)
    (operation : Operation) : Prop where
  /-- It fails where the buffer denies it, for the reason that the buffer has, and nowhere else. -/
  exactly : ∀ error, session.step (.operate name operation) = .error error ↔
    ∃ fault, buffer.Denies operation fault ∧ error = .buffer fault
  /-- Done step by step, it has changed neither buffer nor memory nor destination when it fails. -/
  untouched : ∀ fault, buffer.Denies operation fault →
    operation.routine (operation.start buffer session.memory) =
      (.error fault, operation.start buffer session.memory)
  /-- No other buffer has changed either. -/
  unchanged : ∀ fault, buffer.Denies operation fault →
    session.after (.operate name operation) = session
  /-- Where it is not denied, it leaves what it leaves when it is done step by step. -/
  performed : ∀ reply next, session.step (.operate name operation) = .ok (reply, next) →
    ∃ left, operation.routine (operation.start buffer session.memory) = (.ok reply, left) ∧
      next.byteBuffer name = .ok left.buffer ∧ next.memory = left.memory

theorem failsCleanly {session : Session} {name : String} {buffer : ByteBuffer}
    (ordered : buffer.Ordered) (held : session.byteBuffer name = .ok buffer)
    (operation : Operation) : session.FailsCleanly name buffer operation := by
  have steps := operate_eq held operation
  have routine := operation.routine_eq buffer session.memory
  rw [operation.run_eq] at routine
  constructor
  · intro error
    simp only [ByteBuffer.denies_iff ordered, step, steps]
    cases operation.fault? buffer with
    | some fault => simp [eq_comm]
    | none => simp
  · intro fault denies
    rw [routine, denies.fault? ordered]
    rfl
  · intro fault denies
    rw [after, step, steps, denies.fault? ordered]
  · intro reply next stepped
    rw [step, steps] at stepped
    cases safe : operation.fault? buffer with
    | some fault =>
      rw [safe] at stepped
      cases stepped
    | none =>
      rw [safe] at stepped routine
      cases stepped
      refine ⟨_, routine, ?_, rfl⟩
      rw [byteBuffer_eq_ok, find?_hold, if_pos rfl]

/-- After every run, each operation on each buffer fails exactly where it is denied, and a failure
changes nothing. -/
theorem operate_failsCleanly (initial : Memory) (steps : List Step) {name : String}
    {buffer : ByteBuffer} (held : ((fresh initial).run steps).byteBuffer name = .ok buffer)
    (operation : Operation) :
    ((fresh initial).run steps).FailsCleanly name buffer operation :=
  failsCleanly (ordered_run_fresh initial steps name buffer held) held operation

/-- A view that is at its end and one that refuses writes, asked for a byte too many and to write no
byte at all. -/
theorem operate_failsCleanly_exhausted :
    let initial : Memory := fun _ => 7
    let steps : List Step :=
      [.wrapPointer "raw" 100 4, .asReadOnly "raw" "shown", .operate "raw" (.setLimit 3),
        .operate "raw" (.setPosition 3)]
    let session := (fresh initial).run steps
    let raw : ByteBuffer := ⟨.native ⟨100, 4, false⟩, 4, 3, 3⟩
    let shown : ByteBuffer := ⟨.native ⟨100, 4, true⟩, 4, 0, 4⟩
    session.byteBuffer "raw" = .ok raw ∧ session.byteBuffer "shown" = .ok shown ∧
      (∀ operation, session.FailsCleanly "raw" raw operation) ∧
      (∀ operation, session.FailsCleanly "shown" shown operation) ∧
      session.step (.operate "raw" (.getBytes [238])) = .error (.buffer (.underflow 1 0)) ∧
      session.step (.operate "shown" (.putBytes [])) = .error (.buffer .readOnly) := by
  intro initial steps session raw shown
  have heldRaw : session.byteBuffer "raw" = .ok raw := by decide +kernel
  have heldShown : session.byteBuffer "shown" = .ok shown := by decide +kernel
  have rawFails := operate_failsCleanly initial steps heldRaw
  have shownFails := operate_failsCleanly initial steps heldShown
  refine ⟨heldRaw, heldShown, rawFails, shownFails, ?_, ?_⟩
  · exact ((rawFails (.getBytes [238])).exactly _).mpr ⟨_, .getBytes (by decide), rfl⟩
  · exact ((shownFails (.putBytes [])).exactly _).mpr ⟨_, .write rfl rfl, rfl⟩

end Session

end LinkGate
