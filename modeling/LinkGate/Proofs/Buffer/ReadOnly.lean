import LinkGate.Proofs.Buffer.Session

/-!
# Read-only buffers

A conversion to read-only is never undone.  `Converted` follows a buffer from its conversion on,
through duplicates, further conversions and operations; `WriteProtected` says what its holder can do
with it, which is to read: there is no way to write through it, and no way to its address.
-/

set_option autoImplicit false

namespace LinkGate

/-- The name of the buffer that a step acts on, or makes another one from. -/
def Step.subject? : Step → Option String
  | .duplicate source _ | .asReadOnly source _ | .alias source _ _ => some source
  | .operate name _ | .look name | .hasPointer name | .pointer name | .forget name => some name
  | .handleAsReadOnly source _ | .handleHasPointer source | .handlePointer source _
  | .handleFree source => source
  | .wrapPointer _ _ _ | .allocate _ _ | .wrap _ _ | .foreign _ _ | .load _ _ | .store _ _ => none

def Storage.isNative : Storage → Bool
  | array _ _ => false
  | native _ => true

namespace ByteBuffer

/-- Why a buffer that refuses writes does not give an address. -/
def refusal (buffer : ByteBuffer) : AddressError :=
  if buffer.storage.isNative then .readOnly else .notBridged

theorem hasPointer_view (buffer : ByteBuffer) :
    buffer.view.hasPointer = buffer.storage.isNative := by
  rw [BufferView.hasPointer, view, provenance]
  cases buffer.storage <;> rfl

/-- A provenance keeps the refusal, whatever buffer shows it. -/
theorem pointer_of_provenance {buffer : ByteBuffer} (refused : buffer.readOnly = true)
    {view : BufferView} (shown : view.provenance = buffer.provenance) :
    view.pointer = .error buffer.refusal := by
  rw [readOnly] at refused
  rw [BufferView.pointer, shown, provenance, refusal]
  cases storage : buffer.storage with
  | array bytes readOnly => rfl
  | native region =>
    rw [storage] at refused
    exact if_pos (.inl refused)

theorem pointer_view {buffer : ByteBuffer} (refused : buffer.readOnly = true) :
    buffer.view.pointer = .error buffer.refusal :=
  pointer_of_provenance refused rfl

theorem ownBytes?_readOnly {buffer : ByteBuffer} (refused : buffer.readOnly = true) :
    buffer.ownBytes? = none := by
  rw [readOnly] at refused
  rw [ownBytes?]
  cases storage : buffer.storage with
  | array bytes flag =>
    have flagged : flag = true := by rwa [storage] at refused
    rw [flagged]
  | native region => rfl

end ByteBuffer

namespace Operation
variable {buffer : ByteBuffer} {operation : Operation}

theorem written?_readOnly (refused : buffer.readOnly = true)
    (safe : operation.fault? buffer = none) : operation.written? buffer = none := by
  cases writes : operation.written? buffer with
  | none => rfl
  | some write =>
    rw [fault?_readOnly refused writes] at safe
    cases safe

theorem storage_next (refused : buffer.readOnly = true) (memory : Memory)
    (safe : operation.fault? buffer = none) :
    (operation.next buffer memory).storage = buffer.storage := by
  rw [next, stored, written?_readOnly refused safe]

end Operation

namespace Session
variable {session : Session} {name : String} {buffer : ByteBuffer}

theorem byteBuffer_hold (name : String) (buffer : ByteBuffer) :
    (session.hold name (.buffer buffer)).byteBuffer name = .ok buffer := by
  rw [byteBuffer_eq_ok, find?_hold, if_pos rfl]

theorem view_eq_ok (held : session.byteBuffer name = .ok buffer) :
    session.view name = .ok buffer.view := by
  rw [view, byteBuffer_eq_ok.mp held]
  rfl

/-- A name whose buffer no step has touched stands for the same buffer still. -/
theorem byteBuffer_after {step : Step} (held : session.byteBuffer name = .ok buffer)
    (other : step.target? ≠ some name) : (session.after step).byteBuffer name = .ok buffer := by
  rw [byteBuffer_eq_ok, (change_after session step).find?_eq other]
  exact byteBuffer_eq_ok.mp held

theorem byteBuffer_after_operate (held : session.byteBuffer name = .ok buffer)
    (operation : Operation) :
    ∃ next, (session.after (.operate name operation)).byteBuffer name = .ok next ∧
      next.readOnly = buffer.readOnly ∧
      (buffer.readOnly = true → next.storage = buffer.storage) := by
  cases safe : operation.fault? buffer with
  | some error =>
    refine ⟨buffer, ?_, rfl, fun _ => rfl⟩
    rw [after, step, operate_eq held, safe]
    exact held
  | none =>
    refine ⟨operation.next buffer session.memory, ?_,
      Operation.readOnly_next session.memory, ?_⟩
    · rw [after, step_operate held safe]
      exact byteBuffer_hold name _
    · intro refused
      exact Operation.storage_next refused session.memory safe

theorem memory_after_operate (held : session.byteBuffer name = .ok buffer)
    (refused : buffer.readOnly = true) (operation : Operation) :
    (session.after (.operate name operation)).memory = session.memory := by
  cases safe : operation.fault? buffer with
  | some error =>
    rw [after, step, operate_eq held, safe]
  | none =>
    rw [after, step_operate held safe, hold, Operation.stored,
      Operation.written?_readOnly refused safe]

theorem run_concat (start : Session) (steps : List Step) (step : Step) :
    start.run (steps ++ [step]) = (start.run steps).after step :=
  List.foldl_concat ..

/-- After a run, the buffer of a name comes out of a conversion to read-only: the conversion itself
has made it, or it was duplicated from such a buffer, or it was one before and operations have moved
its cursors or other steps have gone by. -/
inductive Converted (start : Session) : List Step → String → Prop where
  | asReadOnly {steps : List Step} {source : String} {buffer : ByteBuffer} (name : String)
      (held : (start.run steps).byteBuffer source = .ok buffer) :
      Converted start (steps ++ [.asReadOnly source name]) name
  | handleAsReadOnly {steps : List Step} {source : String} {buffer : ByteBuffer} (name : String)
      (held : (start.run steps).byteBuffer source = .ok buffer) :
      Converted start (steps ++ [.handleAsReadOnly (some source) name]) name
  | duplicate {steps : List Step} {source : String} (name : String)
      (converted : Converted start steps source) :
      Converted start (steps ++ [.duplicate source name]) name
  | operate {steps : List Step} {name : String} (operation : Operation)
      (converted : Converted start steps name) :
      Converted start (steps ++ [.operate name operation]) name
  | other {steps : List Step} {name : String} {step : Step}
      (converted : Converted start steps name) (other : step.target? ≠ some name) :
      Converted start (steps ++ [step]) name
  | failed {steps : List Step} {name : String} {step : Step} {error : StepError}
      (converted : Converted start steps name)
      (fails : (start.run steps).step step = .error error) :
      Converted start (steps ++ [step]) name

theorem Converted.readOnly {start : Session} {steps : List Step}
    (converted : start.Converted steps name) :
    ∃ buffer, (start.run steps).byteBuffer name = .ok buffer ∧ buffer.readOnly = true := by
  induction converted with
  | @asReadOnly _ _ buffer name held =>
    refine ⟨buffer.asReadOnly, ?_, buffer.storage.readOnly_asReadOnly⟩
    rw [run_concat, after, step, held]
    exact byteBuffer_hold name _
  | @handleAsReadOnly _ _ buffer name held =>
    refine ⟨buffer.asReadOnly, ?_, buffer.storage.readOnly_asReadOnly⟩
    rw [run_concat, after, step, handle, held]
    exact byteBuffer_hold name _
  | duplicate name _ ih =>
    obtain ⟨buffer, held, refused⟩ := ih
    refine ⟨buffer, ?_, refused⟩
    rw [run_concat, after, step, held]
    exact byteBuffer_hold name _
  | operate operation _ ih =>
    obtain ⟨buffer, held, refused⟩ := ih
    obtain ⟨next, heldNext, same, _⟩ := byteBuffer_after_operate held operation
    rw [run_concat]
    exact ⟨next, heldNext, same.trans refused⟩
  | other _ other ih =>
    obtain ⟨buffer, held, refused⟩ := ih
    rw [run_concat]
    exact ⟨buffer, byteBuffer_after held other, refused⟩
  | failed _ fails ih =>
    rw [run_concat, after, fails]
    exact ih

/-- A name stands for a buffer through which nothing can be written, wherever its cursors are. -/
structure WriteProtected (session : Session) (name : String) (buffer : ByteBuffer) : Prop where
  held : session.byteBuffer name = .ok buffer
  reported : ∃ view, session.view name = .ok view ∧ view.readOnly = true
  put : ∀ index value,
    session.step (.operate name (.put index value)) = .error (.buffer .readOnly)
  putNext : ∀ value, session.step (.operate name (.putNext value)) = .error (.buffer .readOnly)
  putBytes : ∀ source,
    session.step (.operate name (.putBytes source)) = .error (.buffer .readOnly)
  ownBytes : ∃ next, session.step (.operate name .ownBytes) = .ok (.ownBytes none, next)
  /-- The two kinds of storage can still be told apart. -/
  hasPointer : session.step (.hasPointer name) = .ok (.flag buffer.storage.isNative, session)
  handleHasPointer : session.step (.handleHasPointer (some name)) =
    .ok (.number (if buffer.storage.isNative then 1 else 0), session)
  pointer : session.step (.pointer name) = .error (.address buffer.refusal)
  handlePointer : session.step (.handlePointer (some name) true) =
    .ok (.hostAddress (.ofError buffer.refusal) none, session)
  /-- A buffer of another make that shows this one's provenance does not give the address either,
  whatever it says of itself. -/
  lent : ∀ view : BufferView, view.provenance = buffer.provenance →
    view.pointer = .error buffer.refusal
  /-- An operation leaves the bytes of the buffer as they are, and the buffer protected. -/
  operate : ∀ operation, ∃ next,
    (session.after (.operate name operation)).byteBuffer name = .ok next ∧
      next.readOnly = true ∧ next.storage = buffer.storage
  /-- Nothing that is done with the buffer changes memory or another buffer. -/
  harmless : ∀ step : Step, step.subject? = some name →
    (session.after step).memory = session.memory ∧
      ∀ other, step.target? ≠ some other →
        (session.after step).find? other = session.find? other

theorem memory_after_subject (held : session.byteBuffer name = .ok buffer)
    (refused : buffer.readOnly = true) {step : Step} (subject : step.subject? = some name) :
    (session.after step).memory = session.memory := by
  have changed := (change_after session step).memory_eq
  cases step with
  | operate subjectName operation =>
    cases subject
    exact memory_after_operate held refused operation
  | store _ _ => exact absurd subject nofun
  | wrapPointer _ _ _ | allocate _ _ | wrap _ _ | duplicate _ _ | asReadOnly _ _ | foreign _ _
  | «alias» _ _ _ | look _ | hasPointer _ | pointer _ | forget _ | load _ _
  | handleAsReadOnly _ _ | handleHasPointer _ | handlePointer _ _ | handleFree _ => exact changed

theorem writeProtected (held : session.byteBuffer name = .ok buffer)
    (refused : buffer.readOnly = true) : session.WriteProtected name buffer where
  held := held
  reported := ⟨buffer.view, view_eq_ok held, refused⟩
  put index value := by
    rw [step, operate_eq held, Operation.fault?_readOnly refused rfl]
  putNext value := by
    rw [step, operate_eq held, Operation.fault?_readOnly refused rfl]
  putBytes source := by
    rw [step, operate_eq held, Operation.fault?_readOnly refused rfl]
  ownBytes := by
    rw [step_operate held rfl, Operation.reply, ByteBuffer.ownBytes?_readOnly refused]
    exact ⟨_, rfl⟩
  hasPointer := by
    rw [step, view_eq_ok held, ← buffer.hasPointer_view]
    rfl
  handleHasPointer := by
    rw [step, handle, held, ← buffer.hasPointer_view]
    rfl
  pointer := by
    have denied := ByteBuffer.pointer_view refused
    rw [step, view_eq_ok held]
    change (buffer.view.pointer.mapError StepError.address >>= _) = _
    rw [denied]
    rfl
  handlePointer := by
    have denied : Handle.pointer (some buffer) true = (.ofError buffer.refusal, none) := by
      rw [Handle.pointer, if_pos rfl]
      simp only [ByteBuffer.pointer_view refused]
    rw [step, handle, held]
    change Except.ok (Reply.hostAddress (Handle.pointer (some buffer) true).1
      (Handle.pointer (some buffer) true).2, session) = _
    rw [denied]
  lent view shown := ByteBuffer.pointer_of_provenance refused shown
  operate operation := by
    obtain ⟨next, heldNext, same, storage⟩ := byteBuffer_after_operate held operation
    exact ⟨next, heldNext, same.trans refused, storage refused⟩
  harmless step subject :=
    ⟨memory_after_subject held refused subject,
      fun _ other => (change_after session step).find?_eq other⟩

/-- Read-only is hereditary: after every run, a buffer that comes out of a conversion to read-only
is write protected. -/
theorem converted_writeProtected (initial : Memory) (steps : List Step) (name : String)
    (converted : (fresh initial).Converted steps name) :
    ∃ buffer, ((fresh initial).run steps).WriteProtected name buffer := by
  obtain ⟨buffer, held, refused⟩ := converted.readOnly
  exact ⟨buffer, writeProtected held refused⟩

/-- The conversion goes through a handle; the buffer that was converted and the one that was
duplicated are both gone when the copy is asked. -/
theorem converted_writeProtected_copy :
    let initial : Memory := fun _ => 7
    let before : List Step := [.wrapPointer "raw" 100 4, .operate "raw" (.setPosition 3)]
    let steps : List Step := before ++ [.handleAsReadOnly (some "raw") "shown"] ++
      [.duplicate "shown" "copy"] ++ [.handleFree (some "raw")] ++ [.wrap "shown" [1, 2]] ++
      [.operate "copy" .flip] ++ [.duplicate "raw" "copy"]
    (fresh initial).Converted steps "copy" ∧
      ∃ buffer, ((fresh initial).run steps).WriteProtected "copy" buffer := by
  intro initial before steps
  have held : ((fresh initial).run before).byteBuffer "raw" =
      .ok ⟨.native ⟨100, 4, false⟩, 4, 3, 4⟩ := by
    decide +kernel
  have made := Converted.duplicate "copy" (Converted.handleAsReadOnly "shown" held)
  have kept : (fresh initial).Converted steps "copy" := by
    apply Converted.failed
    · apply Converted.operate
      exact (made.other (by decide)).other (by decide)
    · rfl
  exact ⟨kept, converted_writeProtected initial steps "copy" kept⟩

end Session

end LinkGate
