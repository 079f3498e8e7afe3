import LinkGate.Proofs.Buffer.Session

/-!
# Views of one memory

Any number of buffers may lie over the same bytes.  A run has a history of writes, made through any
of them or to memory directly, and memory is at every moment what the history has left: so a read
through one view sees what was last written through another.
-/

set_option autoImplicit false

namespace LinkGate

/-- What a read replies. -/
def Reply.read? : Reply → Option Bytes
  | byte value => some [value]
  | bytes value => some value
  | _ => none

namespace Session

/-- The writes that a run makes to memory, the first one first. -/
def history (session : Session) : List Step → List Write
  | [] => []
  | step :: rest => (session.write? step).toList ++ (session.after step).history rest

theorem memory_run (session : Session) (steps : List Step) :
    (session.run steps).memory = latest session.memory (session.history steps) := by
  induction steps generalizing session with
  | nil => rfl
  | cons step rest ih =>
    have first := (change_after session step).memory_eq
    funext address
    rw [history, latest_append, ← first]
    exact congrFun (ih (session.after step)) address

end Session

namespace Operation
variable {buffer : ByteBuffer} {operation : Operation}

theorem reply_read {index count : Nat} {region : Region} (lies : buffer.storage = .native region)
    (reads : operation.read? buffer = some (index, count)) (memory : Memory) :
    (operation.reply buffer memory).read? = some (memory.load (region.base + index) count) := by
  cases operation with
  | get _ | getNext | getBytes _ =>
    cases reads
    rw [reply, lies]
    rfl
  | setPosition _ | setLimit _ | clear | flip | put _ _ | putNext _ | putBytes _ | ownBytes =>
    exact absurd reads nofun

end Operation

namespace Session

/-- After every run, a read through a view of native memory gives at each place the byte last
written there by anyone, and a write changes the bytes of its own interval and no others. -/
theorem views_share_memory (initial : Memory) (steps : List Step) {name : String}
    {operation : Operation} {buffer : ByteBuffer} {region : Region} {reply : Reply}
    {next : Session} (held : ((fresh initial).run steps).byteBuffer name = .ok buffer)
    (lies : buffer.storage = .native region)
    (ran : ((fresh initial).run steps).step (.operate name operation) = .ok (reply, next)) :
    (∀ index count, operation.read? buffer = some (index, count) →
      index + count ≤ region.length ∧
        reply.read? = some ((List.range count).map fun offset =>
          latest initial ((fresh initial).history steps) (region.base + index + offset))) ∧
    (∀ index bytes, operation.written? buffer = some (index, bytes) →
      index + bytes.length ≤ region.length ∧
        (∀ offset (inside : offset < bytes.length),
          next.memory (region.base + index + offset) = bytes[offset]) ∧
        ∀ address, address < region.base + index ∨ region.base + index + bytes.length ≤ address →
          next.memory address = ((fresh initial).run steps).memory address) ∧
    (operation.written? buffer = none → next.memory = ((fresh initial).run steps).memory) := by
  have memory_eq := memory_run (fresh initial) steps
  have ordered := ordered_run_fresh initial steps name buffer held
  have inside : buffer.limit ≤ region.length := by
    have inside := ordered.limit_le_length
    rw [lies, Storage.length] at inside
    exact inside
  rw [step, operate_eq held] at ran
  cases safe : operation.fault? buffer with
  | some error =>
    rw [safe] at ran
    cases ran
  | none =>
    rw [safe] at ran
    cases ran
    refine ⟨?_, ?_, ?_⟩
    · intro index count reads
      have within := Operation.read_within ordered safe reads
      refine ⟨Nat.le_trans within inside, ?_⟩
      rw [Operation.reply_read lies reads, memory_eq]
      rfl
    · intro index bytes writes
      have within := (Operation.written_within ordered safe writes).2
      refine ⟨Nat.le_trans within inside, ?_⟩
      rw [hold, Operation.stored, writes, lies]
      exact ⟨fun offset fits => Memory.store_inside _ _ bytes fits,
        fun address outside => Memory.store_outside _ _ bytes outside⟩
    · intro quiet
      rw [hold, Operation.stored, quiet]

theorem views_share_memory_overlapping :
    let initial : Memory := fun address => if address = 106 then 42 else 0
    let steps : List Step :=
      [.wrapPointer "low" 100 8, .wrapPointer "high" 104 8, .asReadOnly "high" "shown",
        .store 102 [7, 7, 7], .operate "low" (.put 5 9), .operate "low" (.setPosition 3),
        .operate "low" (.putBytes [1, 2]), .operate "shown" (.put 0 3)]
    let before := (fresh initial).run steps
    (∃ reply next, before.step (.operate "shown" (.getBytes [0, 0, 0])) = .ok (reply, next) ∧
      reply.read? = some ((List.range 3).map fun offset =>
        latest initial ((fresh initial).history steps) (104 + 0 + offset)) ∧
      reply.read? = some [2, 9, 42]) ∧
    ∃ reply next, before.step (.operate "low" (.putNext 5)) = .ok (reply, next) ∧
      next.memory 105 = 5 ∧
      ∀ address, address < 105 ∨ 106 ≤ address → next.memory address = before.memory address := by
  intro initial steps before
  have shown : before.byteBuffer "shown" = .ok ⟨.native ⟨104, 8, true⟩, 8, 0, 8⟩ := by
    decide +kernel
  have low : before.byteBuffer "low" = .ok ⟨.native ⟨100, 8, false⟩, 8, 5, 8⟩ := by
    decide +kernel
  have seen := @step_operate before _ _ (.getBytes [0, 0, 0]) shown rfl
  have written := @step_operate before _ _ (.putNext 5) low rfl
  refine ⟨⟨_, _, seen, ?_, ?_⟩, _, _, written, ?_, ?_⟩
  · exact ((views_share_memory initial steps shown rfl seen).1 0 3 rfl).2
  · decide +kernel
  · exact ((views_share_memory initial steps low rfl written).2.1 5 [5] rfl).2.1 0 (by decide)
  · exact ((views_share_memory initial steps low rfl written).2.1 5 [5] rfl).2.2

end Session

end LinkGate
