import LinkGate.Proofs.Buffer.ReadOnly

/-!
# Buffers do not disturb each other

What becomes of a buffer is decided by the operations on it, and by nothing that is done to another
one: its cursors, its flag, and its bytes too, if they are its own.  So `alone`, which runs these
operations on the buffer and nothing else, says where any session leaves it.  A copy of a buffer
that holds its bytes begins with these bytes, and from then on only what is written through it
counts.
-/

set_option autoImplicit false

namespace LinkGate

/-- Memory that holds some bytes from its first address on. -/
def Memory.ofBytes (bytes : Bytes) : Memory := fun address =>
  (bytes[address]?).getD 0

/-- Bytes after some writes to them, the oldest first; at each index the last one counts. -/
def overwritten (bytes : Bytes) (writes : List Write) : Bytes :=
  Memory.load (latest (.ofBytes bytes) writes) 0 bytes.length

theorem overwritten_nil (bytes : Bytes) : overwritten bytes [] = bytes := by
  apply List.ext_getElem?
  intro i
  rw [overwritten]
  by_cases inside : i < bytes.length
  · rw [Memory.load_getElem? _ _ inside, Nat.zero_add, latest, List.reverse_nil,
      List.findSome?_nil, Option.getD_none, Memory.ofBytes, List.getElem?_eq_getElem inside,
      Option.getD_some]
  · rw [List.getElem?_eq_none (by rw [Memory.length_load]; omega),
      List.getElem?_eq_none (by omega)]

/-- A write within the bytes replaces that part of them. -/
theorem overwritten_concat (bytes : Bytes) (writes : List Write) {start : Nat} {source : Bytes}
    (fits : start + source.length ≤ bytes.length) :
    overwritten bytes (writes ++ [⟨start, source⟩]) =
      (overwritten bytes writes).take start ++ source ++
        (overwritten bytes writes).drop (start + source.length) := by
  have stored := Memory.load_store_inside (latest (.ofBytes bytes) writes) 0 source fits
  have last : latest (.ofBytes bytes) (writes ++ [⟨start, source⟩]) =
      Memory.store (latest (.ofBytes bytes) writes) start source := by
    funext address
    rw [latest_append, latest_singleton]
  rw [Nat.zero_add] at stored
  rw [overwritten, last, stored, overwritten]

theorem length_overwritten (bytes : Bytes) (writes : List Write) :
    (overwritten bytes writes).length = bytes.length :=
  Memory.length_load ..

/-- Memory has no part in what becomes of a buffer. -/
theorem Operation.after_fst_eq (operation : Operation) (buffer : ByteBuffer)
    (memory other : Memory) :
    (operation.after buffer memory).1 = (operation.after buffer other).1 := by
  have storage : (operation.stored buffer memory).1 = (operation.stored buffer other).1 := by
    rw [stored, stored]
    cases operation.written? buffer with
    | none => rfl
    | some write => cases buffer.storage <;> rfl
  rw [after, after, run_eq, run_eq]
  cases operation.fault? buffer with
  | some error => rfl
  | none => simp only [next, storage]

namespace ByteBuffer

/-- The buffer after an operation, wherever it lies. -/
def undergo (buffer : ByteBuffer) (operation : Operation) : ByteBuffer :=
  (operation.after buffer fun _ => 0).1

/-- The buffer after operations on it, and nothing else. -/
def alone (buffer : ByteBuffer) (operations : List Operation) : ByteBuffer :=
  operations.foldl undergo buffer

/-- Where an operation writes, by index, and what; nothing, if it fails. -/
def ownWrite? (buffer : ByteBuffer) (operation : Operation) : Option Write :=
  match operation.fault? buffer with
  | some _ => none
  | none => (operation.written? buffer).map fun (start, bytes) => ⟨start, bytes⟩

/-- The writes of operations that do not fail, the first one first. -/
def ownWrites (buffer : ByteBuffer) : List Operation → List Write
  | [] => []
  | operation :: rest =>
    (buffer.ownWrite? operation).toList ++ (buffer.undergo operation).ownWrites rest

variable {buffer : ByteBuffer} (ordered : buffer.Ordered) {bytes : Bytes} {flag : Bool}
  {past : List Write} (holds : buffer.storage = .array (overwritten bytes past) flag)
include ordered holds

theorem storage_undergo (operation : Operation) :
    (buffer.undergo operation).storage =
      .array (overwritten bytes (past ++ (buffer.ownWrite? operation).toList)) flag := by
  rw [undergo, Operation.after, Operation.run_eq, ownWrite?]
  cases safe : operation.fault? buffer with
  | some error =>
    rw [Option.toList_none, List.append_nil]
    exact holds
  | none =>
    simp only [Operation.next, Operation.stored]
    cases writes : operation.written? buffer with
    | none =>
      rw [Option.map_none, Option.toList_none, List.append_nil]
      exact holds
    | some write =>
      obtain ⟨start, source⟩ := write
      have within := (Operation.written_within ordered safe writes).2
      have inside : buffer.limit ≤ bytes.length := by
        have inside := ordered.limit_le_length
        rw [holds, Storage.length, length_overwritten] at inside
        exact inside
      rw [Option.map_some, Option.toList_some,
        overwritten_concat bytes past (Nat.le_trans within inside), holds]
      rfl

theorem storage_alone (operations : List Operation) :
    (buffer.alone operations).storage =
      .array (overwritten bytes (past ++ buffer.ownWrites operations)) flag := by
  induction operations generalizing buffer past with
  | nil =>
    rw [ownWrites, List.append_nil]
    exact holds
  | cons operation rest ih =>
    have later := ih (Operation.ordered_after ordered _) (storage_undergo ordered holds operation)
    rw [ownWrites, ← List.append_assoc]
    exact later

end ByteBuffer

theorem ByteBuffer.storage_eq_array {buffer : ByteBuffer} {bytes : Bytes} {flag : Bool}
    (holds : buffer.storage = .array bytes flag) :
    buffer.storage = .array bytes buffer.readOnly := by
  rw [readOnly, holds]
  rfl

/-- A buffer that refuses writes has none. -/
theorem ByteBuffer.ownWrites_readOnly {buffer : ByteBuffer} (refused : buffer.readOnly = true)
    (operations : List Operation) : buffer.ownWrites operations = [] := by
  induction operations generalizing buffer with
  | nil => rfl
  | cons operation rest ih =>
    have still : (buffer.undergo operation).readOnly = true :=
      (Operation.readOnly_after _).trans refused
    have nothing : buffer.ownWrite? operation = none := by
      rw [ownWrite?]
      cases safe : operation.fault? buffer with
      | some error => rfl
      | none => simp only [Operation.written?_readOnly refused safe, Option.map_none]
    rw [ownWrites, nothing, ih still]
    rfl

namespace Step

/-- The operation that a step asks of a name. -/
def operation? (name : String) : Step → Option Operation
  | .operate other operation => if other = name then some operation else none
  | _ => none

theorem operation?_of_other {step : Step} {name : String} (other : step.target? ≠ some name) :
    step.operation? name = none := by
  cases step with
  | operate subject operation => exact if_neg fun same => other (congrArg some same)
  | wrapPointer _ _ _ | allocate _ _ | wrap _ _ | duplicate _ _ | asReadOnly _ _ | foreign _ _
  | «alias» _ _ _ | look _ | hasPointer _ | pointer _ | forget _ | load _ _ | store _ _
  | handleAsReadOnly _ _ | handleHasPointer _ | handlePointer _ _ | handleFree _ => rfl

/-- A step that gives the name `name` to a copy of the buffer of `source`. -/
inductive Copies (source name : String) : Step → Prop where
  | duplicate : Copies source name (.duplicate source name)
  | asReadOnly : Copies source name (.asReadOnly source name)
  | handleAsReadOnly : Copies source name (.handleAsReadOnly (some source) name)

end Step

namespace Session

/-- Through some steps a name stands for one buffer: every step is an operation on the buffer, or
leaves the name alone, or changes nothing. -/
def Keeps (session : Session) (name : String) : List Step → Prop
  | [] => True
  | step :: rest =>
    ((∃ operation, step = .operate name operation) ∨ step.target? ≠ some name ∨
      step.operation? name = none ∧ session.after step = session) ∧
      (session.after step).Keeps name rest

variable {session : Session} {name : String} {buffer : ByteBuffer}

theorem byteBuffer_undergo (held : session.byteBuffer name = .ok buffer) (operation : Operation) :
    (session.after (.operate name operation)).byteBuffer name = .ok (buffer.undergo operation) := by
  rw [ByteBuffer.undergo, operation.after_fst_eq buffer _ session.memory, Operation.after,
    operation.run_eq, after, step, operate_eq held]
  cases operation.fault? buffer with
  | some error => exact held
  | none => exact byteBuffer_hold name _

theorem byteBuffer_run (held : session.byteBuffer name = .ok buffer) {steps : List Step}
    (kept : session.Keeps name steps) :
    (session.run steps).byteBuffer name =
      .ok (buffer.alone (steps.filterMap (Step.operation? name))) := by
  induction steps generalizing session buffer with
  | nil => exact held
  | cons step rest ih =>
    obtain ⟨here, later⟩ := kept
    rcases here with ⟨operation, rfl⟩ | other | ⟨silent, idle⟩
    · have asked : (Step.operate name operation).operation? name = some operation := if_pos rfl
      rw [List.filterMap_cons_some asked]
      exact ih (byteBuffer_undergo held operation) later
    · rw [List.filterMap_cons_none (Step.operation?_of_other other)]
      exact ih (byteBuffer_after held other) later
    · rw [List.filterMap_cons_none silent]
      exact ih (idle.symm ▸ held) later

theorem byteBuffer_copy {source : String} (held : session.byteBuffer source = .ok buffer)
    {step : Step} (copies : step.Copies source name) :
    ∃ copy, (session.after step).byteBuffer name = .ok copy ∧
      (copy = buffer.duplicate ∨ copy = buffer.asReadOnly) := by
  cases copies with
  | duplicate =>
    refine ⟨buffer.duplicate, ?_, .inl rfl⟩
    rw [after, Session.step, held]
    exact byteBuffer_hold name _
  | asReadOnly =>
    refine ⟨buffer.asReadOnly, ?_, .inr rfl⟩
    rw [after, Session.step, held]
    exact byteBuffer_hold name _
  | handleAsReadOnly =>
    refine ⟨buffer.asReadOnly, ?_, .inr rfl⟩
    rw [after, Session.step, handle, held]
    exact byteBuffer_hold name _

/-- The bytes of a buffer that holds them itself are the ones it had, as far as nothing has been
written over them through the buffer since. -/
def OwnBytes (session : Session) (name : String) (buffer : ByteBuffer) (bytes : Bytes)
    (steps : List Step) : Prop :=
  ∃ later, (session.run steps).byteBuffer name = .ok later ∧
    later.storage =
      .array (overwritten bytes (buffer.ownWrites (steps.filterMap (Step.operation? name))))
        buffer.readOnly

/-- No buffer is disturbed by what is done to another. -/
structure Isolated (session : Session) : Prop where
  /-- A step leaves every other name what it was: cursors, capacity, flag, and bytes of its own. -/
  others : ∀ step name, step.target? ≠ some name →
    (session.after step).find? name = session.find? name
  /-- Through any steps a buffer becomes what the operations on it alone would make of it. -/
  alone : ∀ name buffer steps, session.byteBuffer name = .ok buffer → session.Keeps name steps →
    (session.run steps).byteBuffer name =
      .ok (buffer.alone (steps.filterMap (Step.operation? name)))
  ownBytes : ∀ name buffer bytes flag steps, session.byteBuffer name = .ok buffer →
    buffer.storage = .array bytes flag → session.Keeps name steps →
    session.OwnBytes name buffer bytes steps
  /-- A copy has bytes of its own from the start, and has them for good if it refuses writes. -/
  copies : ∀ step source name buffer bytes flag steps, step.Copies source name →
    session.byteBuffer source = .ok buffer → buffer.storage = .array bytes flag →
    (session.after step).Keeps name steps →
    ∃ copy, (session.after step).byteBuffer name = .ok copy ∧ copy.capacity = buffer.capacity ∧
      copy.position = buffer.position ∧ copy.limit = buffer.limit ∧
      copy.storage = .array bytes copy.readOnly ∧
      (session.after step).OwnBytes name copy bytes steps ∧
      (copy.readOnly = true → copy.ownWrites (steps.filterMap (Step.operation? name)) = [])

theorem Ordered.ownBytes (ordered : session.Ordered) {bytes : Bytes} {flag : Bool}
    {steps : List Step} (held : session.byteBuffer name = .ok buffer)
    (holds : buffer.storage = .array bytes flag) (kept : session.Keeps name steps) :
    session.OwnBytes name buffer bytes steps := by
  have first : buffer.storage = .array (overwritten bytes []) buffer.readOnly := by
    rw [overwritten_nil]
    exact ByteBuffer.storage_eq_array holds
  exact ⟨_, byteBuffer_run held kept,
    ByteBuffer.storage_alone (ordered name buffer held) first _⟩

/-- After every run, no buffer is disturbed by what is done to another. -/
theorem run_isolated (initial : Memory) (steps : List Step) :
    ((fresh initial).run steps).Isolated := by
  have ordered := ordered_run_fresh initial steps
  constructor
  · intro step name other
    exact (change_after _ step).find?_eq other
  · intro name buffer rest held kept
    exact byteBuffer_run held kept
  · intro name buffer bytes flag rest held holds kept
    exact ordered.ownBytes held holds kept
  · intro step source name buffer bytes flag rest copies held holds kept
    obtain ⟨copy, heldCopy, derives⟩ := byteBuffer_copy held copies
    have after := (change_after _ step).ordered ordered
    have storage : copy.storage = .array bytes copy.readOnly := by
      rcases derives with rfl | rfl
      · exact ByteBuffer.storage_eq_array holds
      · exact ByteBuffer.storage_eq_array (congrArg Storage.asReadOnly holds)
    refine ⟨copy, heldCopy, ?_, ?_, ?_, storage, after.ownBytes heldCopy storage kept,
      fun refused => ByteBuffer.ownWrites_readOnly refused _⟩
    all_goals rcases derives with rfl | rfl <;> rfl

/-- The original is written to, the copy too, in range and out of it, and then a copy of the copy is
made; a step that gives the copy's name away fails. -/
theorem run_isolated_rewritten :
    let before : List Step := [.wrap "own" [1, 2, 3, 4], .operate "own" (.put 0 9)]
    let later : List Step := [.operate "own" (.putBytes [7, 7]), .operate "copy" (.put 3 5),
      .duplicate "none" "copy", .operate "copy" (.put 4 6), .asReadOnly "copy" "shown",
      .operate "shown" (.put 0 0)]
    let session := ((fresh fun _ => 0).run before).after (.duplicate "own" "copy")
    ((fresh fun _ => 0).run before).Isolated ∧ session.Keeps "copy" later ∧
      ∃ copy, (session.run later).byteBuffer "copy" = .ok copy ∧
        copy.storage = .array [9, 2, 3, 5] false := by
  intro before later session
  have isolated := run_isolated (fun _ => 0) before
  have kept : session.Keeps "copy" later :=
    ⟨.inr (.inl (by decide)), .inl ⟨_, rfl⟩, .inr (.inr ⟨rfl, rfl⟩), .inl ⟨_, rfl⟩,
      .inr (.inl (by decide)), .inr (.inl (by decide)), trivial⟩
  have held : ((fresh fun _ => 0).run before).byteBuffer "own" =
      .ok ⟨.array [9, 2, 3, 4] false, 4, 0, 4⟩ := by
    decide +kernel
  obtain ⟨copy, made, -, -, -, -, ⟨rewritten, heldLater, storage⟩, -⟩ :=
    isolated.copies _ "own" "copy" _ _ _ later .duplicate held rfl kept
  have same : copy = ⟨.array [9, 2, 3, 4] false, 4, 0, 4⟩ := by
    have known : session.byteBuffer "copy" = .ok ⟨.array [9, 2, 3, 4] false, 4, 0, 4⟩ := by
      decide +kernel
    exact Except.ok.inj (made.symm.trans known)
  subst same
  have written : rewritten.storage = .array [9, 2, 3, 5] false := by
    rw [storage]
    decide +kernel
  exact ⟨isolated, kept, rewritten, heldLater, written⟩

end Session

end LinkGate
