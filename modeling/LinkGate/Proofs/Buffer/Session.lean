import LinkGate.Proofs.Buffer.Operation
import LinkGate.Proofs.Lookup

/-!
# What a step does

`Change` says once what a step can do to a session: name a new buffer, or one derived from another,
forget a name, let one buffer operate, or store to memory.  What holds of every run is drawn from
it.
-/

set_option autoImplicit false

namespace LinkGate

/-- The name that may stand for something else after a step. -/
def Step.target? : Step → Option String
  | .wrapPointer name _ _ | .allocate name _ | .wrap name _ | .duplicate _ name
  | .asReadOnly _ name | .foreign name _ | .alias _ name _ | .operate name _ | .forget name
  | .handleAsReadOnly _ name => some name
  | .handleFree source => source
  | .look _ | .hasPointer _ | .pointer _ | .load _ _ | .store _ _ | .handleHasPointer _
  | .handlePointer _ _ => none

namespace Session
variable (session : Session)

theorem lookup_setHolding (name other : String) (holding : Holding)
    (holdings : List (String × Holding)) :
    (setHolding name holding holdings).lookup other =
      if other = name then some holding else holdings.lookup other := by
  induction holdings with
  | nil => exact lookup_cons_eq name other holding []
  | cons entry rest ih =>
    obtain ⟨first, held⟩ := entry
    rw [setHolding, lookup_cons_eq]
    by_cases here : first = name
    · rw [if_pos here, lookup_cons_eq, here]
      by_cases same : other = name
      · rw [if_pos same, if_pos same]
      · rw [if_neg same, if_neg same, if_neg same]
    · rw [if_neg here, lookup_cons_eq, ih]
      by_cases same : other = first
      · have apart : other ≠ name := fun equal => here (same.symm.trans equal)
        rw [if_pos same, if_pos same, if_neg apart]
      · rw [if_neg same, if_neg same]

theorem find?_hold (name other : String) (holding : Holding) :
    (session.hold name holding).find? other =
      if other = name then some holding else session.find? other :=
  lookup_setHolding name other holding session.holdings

theorem find?_forget (name other : String) :
    (session.forget name).find? other = if other = name then none else session.find? other :=
  lookup_filter_ne name other session.holdings

variable {session}

theorem byteBuffer_eq_ok {name : String} {buffer : ByteBuffer} :
    session.byteBuffer name = .ok buffer ↔ session.find? name = some (.buffer buffer) := by
  rw [byteBuffer]
  cases session.find? name with
  | none => simp
  | some holding => cases holding <;> simp

theorem operate_eq {name : String} {buffer : ByteBuffer}
    (held : session.byteBuffer name = .ok buffer) (operation : Operation) :
    session.operate name operation =
      match operation.fault? buffer with
      | some error => .error (.buffer error)
      | none => .ok (operation.reply buffer session.memory,
          { session with memory := (operation.stored buffer session.memory).2 }.hold name
            (.buffer (operation.next buffer session.memory))) := by
  rw [operate, held]
  simp only [operation.run_eq]
  cases operation.fault? buffer with
  | some error => rfl
  | none => rfl

theorem step_operate {name : String} {buffer : ByteBuffer} {operation : Operation}
    (held : session.byteBuffer name = .ok buffer) (safe : operation.fault? buffer = none) :
    session.step (.operate name operation) =
      .ok (operation.reply buffer session.memory,
        { session with memory := (operation.stored buffer session.memory).2 }.hold name
          (.buffer (operation.next buffer session.memory))) := by
  rw [step, operate_eq held, safe]

/-- What a step writes to memory: nothing, if it fails. -/
def write? (session : Session) : Step → Option Write
  | .store start bytes => some ⟨start, bytes⟩
  | .operate name operation =>
    match session.byteBuffer name, session.operate name operation with
    | .ok buffer, .ok _ => operation.write? buffer
    | _, _ => none
  | _ => none

/-- The sessions that one step leads to, by the name that may stand for something else afterwards
and by what the step writes to memory. -/
inductive Change (session : Session) : Option String → Option Write → Session → Prop
  | stay {target : Option String} : Change session target none session
  | make (name : String) (storage : Storage) :
    Change session (some name) none (session.hold name (.buffer (.ofStorage storage)))
  | derive (name : String) {source : String} {buffer derived : ByteBuffer}
    (held : session.byteBuffer source = .ok buffer)
    (derives : derived = buffer.duplicate ∨ derived = buffer.asReadOnly) :
    Change session (some name) none (session.hold name (.buffer derived))
  | foreign (name : String) (view : BufferView) :
    Change session (some name) none (session.hold name (.foreign view))
  | forget (name : String) : Change session (some name) none (session.forget name)
  | operate {name : String} {buffer : ByteBuffer} {operation : Operation}
    (held : session.byteBuffer name = .ok buffer) (safe : operation.fault? buffer = none) :
    Change session (some name) (operation.write? buffer)
      ({ session with memory := (operation.stored buffer session.memory).2 }.hold name
        (.buffer (operation.next buffer session.memory)))
  | store (start : Nat) (bytes : Bytes) :
    Change session none (some ⟨start, bytes⟩)
      { session with memory := session.memory.store start bytes }

theorem change_operate (name : String) (operation : Operation) :
    Change session (some name) (session.write? (.operate name operation))
      (session.after (.operate name operation)) := by
  rw [write?, after, step]
  cases held : session.byteBuffer name with
  | error error =>
    rw [operate, held]
    exact .stay
  | ok buffer =>
    rw [operate_eq held]
    cases safe : operation.fault? buffer with
    | some error => exact .stay
    | none => exact .operate held safe

/-- The session that an outcome leaves. -/
def settle (session : Session) : Except StepError (Reply × Session) → Session
  | .error _ => session
  | .ok (_, next) => next

theorem change_bind {α : Type} {first : Except StepError α}
    {next : α → Except StepError (Reply × Session)} {target : Option String}
    (each : ∀ value, first = .ok value →
      Change session target none (session.settle (next value))) :
    Change session target none (session.settle (first >>= next)) := by
  cases first with
  | error error => exact .stay
  | ok value => exact each value rfl

theorem change_after (session : Session) (step : Step) :
    Change session step.target? (session.write? step) (session.after step) := by
  have settled : session.after step = session.settle (session.step step) := by
    rw [after]
    cases session.step step with
    | error error => rfl
    | ok value => rfl
  cases step with
  | wrapPointer name base length => exact .make name (.native ⟨base, length, false⟩)
  | allocate name capacity => exact .make name (.array (List.replicate capacity 0) false)
  | wrap name bytes => exact .make name (.array bytes false)
  | foreign name view => exact .foreign name view
  | operate name operation => exact change_operate name operation
  | forget name => exact .forget name
  | load start count => exact .stay
  | store start bytes => exact .store start bytes
  | duplicate source name =>
    rw [settled]
    exact change_bind fun buffer held => .derive name held (.inl rfl)
  | asReadOnly source name =>
    rw [settled]
    exact change_bind fun buffer held => .derive name held (.inr rfl)
  | «alias» source name view =>
    rw [settled]
    exact change_bind fun shown _ => .foreign name _
  | look name | hasPointer name =>
    rw [settled]
    exact change_bind fun view _ => .stay
  | pointer name =>
    rw [settled]
    exact change_bind fun view _ => change_bind fun address _ => .stay
  | handleHasPointer source | handlePointer source hasPlace =>
    rw [settled]
    exact change_bind fun handle _ => .stay
  | handleAsReadOnly source name =>
    rw [settled]
    cases source with
    | none => exact .stay
    | some source =>
      refine change_bind fun handle given => ?_
      cases held : session.byteBuffer source with
      | error error =>
        rw [Session.handle, held] at given
        cases given
      | ok buffer =>
        rw [Session.handle, held] at given
        cases given
        exact .derive name held (.inr rfl)
  | handleFree source =>
    rw [settled]
    refine change_bind fun handle _ => ?_
    cases source with
    | none => exact .stay
    | some name => exact .forget name

theorem Change.find?_eq {target : Option String} {write : Option Write} {next : Session}
    (change : Change session target write next) {name : String} (other : target ≠ some name) :
    next.find? name = session.find? name := by
  cases change with
  | stay | store _ _ => rfl
  | make _ _ | derive _ _ _ | foreign _ _ =>
    rw [find?_hold, if_neg fun same => other (congrArg some same.symm)]
  | operate _ _ =>
    rw [find?_hold, if_neg fun same => other (congrArg some same.symm)]
    rfl
  | forget _ => rw [find?_forget, if_neg fun same => other (congrArg some same.symm)]

/-- Every byte buffer that is held has its cursors in order. -/
def Ordered (session : Session) : Prop :=
  ∀ name buffer, session.byteBuffer name = .ok buffer → buffer.Ordered

theorem Ordered.hold (ordered : session.Ordered) (name : String) {holding : Holding}
    (well : ∀ buffer, holding = .buffer buffer → buffer.Ordered) :
    (session.hold name holding).Ordered := by
  intro other buffer held
  rw [byteBuffer_eq_ok, find?_hold] at held
  by_cases same : other = name
  · rw [if_pos same] at held
    exact well buffer (Option.some.inj held)
  · rw [if_neg same] at held
    exact ordered other buffer (byteBuffer_eq_ok.mpr held)

theorem Change.ordered {target : Option String} {write : Option Write} {next : Session}
    (change : Change session target write next) (ordered : session.Ordered) : next.Ordered := by
  cases change with
  | stay => exact ordered
  | make name storage =>
    apply ordered.hold
    rintro _ ⟨⟩
    exact ByteBuffer.ordered_ofStorage storage
  | derive name held derives =>
    apply ordered.hold
    rintro _ ⟨⟩
    rcases derives with rfl | rfl
    · exact ordered _ _ held
    · exact (ordered _ _ held).asReadOnly
  | foreign name view =>
    apply ordered.hold
    rintro _ ⟨⟩
  | forget name =>
    intro other buffer held
    rw [byteBuffer_eq_ok, find?_forget] at held
    by_cases same : other = name
    · rw [if_pos same] at held
      exact absurd held nofun
    · rw [if_neg same] at held
      exact ordered other buffer (byteBuffer_eq_ok.mpr held)
  | operate held safe =>
    have kept : Ordered { session with memory := _ } := ordered
    apply kept.hold
    rintro _ ⟨⟩
    exact Operation.ordered_next (ordered _ _ held) session.memory safe
  | store start bytes => exact ordered

theorem Change.memory_eq {target : Option String} {write : Option Write} {next : Session}
    (change : Change session target write next) :
    next.memory = latest session.memory write.toList := by
  cases change with
  | stay | make _ _ | derive _ _ _ | foreign _ _ | forget _ => rfl
  | operate held safe => exact Operation.memory_stored _ session.memory _
  | store start bytes => exact (latest_singleton session.memory start bytes).symm

/-- A session before its first step. -/
def fresh (memory : Memory) : Session :=
  ⟨memory, []⟩

/-- Takes steps one after another; one that fails changes nothing. -/
def run (session : Session) (steps : List Step) : Session :=
  steps.foldl after session

theorem Ordered.run (steps : List Step) (ordered : session.Ordered) :
    (session.run steps).Ordered := by
  induction steps generalizing session with
  | nil => exact ordered
  | cons step rest ih => exact ih ((change_after _ step).ordered ordered)

theorem ordered_run_fresh (memory : Memory) (steps : List Step) :
    ((fresh memory).run steps).Ordered := by
  have start : (fresh memory).Ordered := by
    intro name buffer held
    exact absurd (byteBuffer_eq_ok.mp held) nofun
  exact start.run steps

end Session

end LinkGate
