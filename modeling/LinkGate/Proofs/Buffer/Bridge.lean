import LinkGate.Proofs.Buffer.Isolation
import Mathlib.Data.List.Induction

/-!
# Addresses given back

What a buffer was made over decides what it tells of native memory.  `Descends` follows a buffer
from the step that made it through duplicates, conversions to read-only and operations, and
`Answers` says what it tells then: the region it was made over, and its address unless a conversion
lies between.  `Mirrored` says that a host is told the same through a handle, by number.
-/

set_option autoImplicit false

namespace LinkGate

/-- What a buffer was made over: native memory, or bytes of its own. -/
inductive Origin where
  | region (base : Address) (length : Nat)
  | array
  deriving DecidableEq, Repr

namespace Origin

def isNative : Origin → Bool
  | region _ _ => true
  | array => false

/-- What is shown by a buffer that was, or was not, converted to read-only since. -/
def provenance (converted : Bool) : Origin → Provenance
  | region base length => .region ⟨base, length, converted⟩
  | array => .array

/-- The address that such a buffer gives, or why it gives none. -/
def address (converted : Bool) : Origin → Except AddressError Address
  | region base _ => if converted then .error .readOnly else .ok base
  | array => .error .notBridged

/-- The storages of buffers that were made over an origin, and that were or were not converted to
read-only since. -/
def Keeps (converted : Bool) : Origin → Storage → Prop
  | region base length, storage => storage = .native ⟨base, length, converted⟩
  | array, storage => ∃ bytes, storage = .array bytes converted

section Storages
variable {origin : Origin} {converted : Bool} {storage : Storage}

theorem Keeps.store (keeps : origin.Keeps converted storage) (memory : Memory) (start : Nat)
    (source : Bytes) : origin.Keeps converted (storage.store memory start source).1 := by
  cases origin with
  | region base length =>
    obtain rfl := keeps
    rfl
  | array =>
    obtain ⟨bytes, rfl⟩ := keeps
    exact ⟨_, rfl⟩

theorem Keeps.asReadOnly (keeps : origin.Keeps converted storage) :
    origin.Keeps true storage.asReadOnly := by
  cases origin with
  | region base length =>
    obtain rfl := keeps
    rfl
  | array =>
    obtain ⟨bytes, rfl⟩ := keeps
    exact ⟨_, rfl⟩

theorem Keeps.readOnly_eq (keeps : origin.Keeps converted storage) :
    storage.readOnly = converted := by
  cases origin with
  | region base length =>
    obtain rfl := keeps
    rfl
  | array =>
    obtain ⟨bytes, rfl⟩ := keeps
    rfl

theorem Keeps.provenance_eq (keeps : origin.Keeps converted storage) :
    storage.provenance = origin.provenance converted := by
  cases origin with
  | region base length =>
    obtain rfl := keeps
    rfl
  | array =>
    obtain ⟨bytes, rfl⟩ := keeps
    rfl

end Storages

variable {origin : Origin} {converted : Bool} {buffer : ByteBuffer}

theorem Keeps.undergo (keeps : origin.Keeps converted buffer.storage) (operation : Operation) :
    origin.Keeps converted (buffer.undergo operation).storage := by
  rw [ByteBuffer.undergo, Operation.after, Operation.run_eq]
  cases operation.fault? buffer with
  | some error => exact keeps
  | none =>
    simp only [Operation.next, Operation.stored]
    cases operation.written? buffer with
    | none => exact keeps
    | some write => exact keeps.store _ write.1 write.2

theorem Keeps.view_eq (keeps : origin.Keeps converted buffer.storage) :
    buffer.view.provenance = origin.provenance converted ∧ buffer.view.readOnly = converted :=
  ⟨keeps.provenance_eq, keeps.readOnly_eq⟩

theorem Keeps.hasPointer_eq (keeps : origin.Keeps converted buffer.storage) :
    buffer.view.hasPointer = origin.isNative := by
  rw [BufferView.hasPointer, keeps.view_eq.1]
  cases origin <;> rfl

theorem Keeps.pointer_eq (keeps : origin.Keeps converted buffer.storage) :
    buffer.view.pointer = origin.address converted := by
  obtain ⟨provenance, flag⟩ := keeps.view_eq
  rw [BufferView.pointer, provenance, flag]
  cases origin with
  | array => rfl
  | region base length =>
    -- the region and the buffer refuse writes together
    simp only [Origin.provenance, address, or_self]

end Origin

theorem HostCode.number_injective {code other : HostCode} (same : code.number = other.number) :
    code = other := by
  cases code <;> cases other <;> first | rfl | cases same

namespace Session

/-- After a run, the buffer of a name descends from one that a step of the run has made over
`origin`.  The flag says whether one of the buffers in between was made by a conversion to
read-only. -/
inductive Descends (start : Session) : List Step → String → Origin → Bool → Prop where
  | wrapPointer {steps : List Step} (name : String) (base : Address) (length : Nat) :
    Descends start (steps ++ [.wrapPointer name base length]) name (.region base length) false
  | allocate {steps : List Step} (name : String) (capacity : Nat) :
    Descends start (steps ++ [.allocate name capacity]) name .array false
  | wrap {steps : List Step} (name : String) (bytes : Bytes) :
    Descends start (steps ++ [.wrap name bytes]) name .array false
  | duplicate {steps : List Step} {source : String} {origin : Origin} {converted : Bool}
    (name : String) (descends : Descends start steps source origin converted) :
    Descends start (steps ++ [.duplicate source name]) name origin converted
  | asReadOnly {steps : List Step} {source : String} {origin : Origin} {converted : Bool}
    (name : String) (descends : Descends start steps source origin converted) :
    Descends start (steps ++ [.asReadOnly source name]) name origin true
  | handleAsReadOnly {steps : List Step} {source : String} {origin : Origin} {converted : Bool}
    (name : String) (descends : Descends start steps source origin converted) :
    Descends start (steps ++ [.handleAsReadOnly (some source) name]) name origin true
  | operate {steps : List Step} {name : String} {origin : Origin} {converted : Bool}
    (operation : Operation) (descends : Descends start steps name origin converted) :
    Descends start (steps ++ [.operate name operation]) name origin converted
  | other {steps : List Step} {name : String} {origin : Origin} {converted : Bool} {step : Step}
    (descends : Descends start steps name origin converted) (other : step.target? ≠ some name) :
    Descends start (steps ++ [step]) name origin converted
  | idle {steps : List Step} {name : String} {origin : Origin} {converted : Bool} {step : Step}
    (descends : Descends start steps name origin converted)
    (idle : (start.run steps).after step = start.run steps) :
    Descends start (steps ++ [step]) name origin converted

theorem Descends.held {start : Session} {steps : List Step} {name : String} {origin : Origin}
    {converted : Bool} (descends : start.Descends steps name origin converted) :
    ∃ buffer, (start.run steps).byteBuffer name = .ok buffer ∧
      origin.Keeps converted buffer.storage := by
  induction descends with
  | wrapPointer name base length =>
    rw [run_concat]
    exact ⟨_, byteBuffer_hold name _, rfl⟩
  | allocate name capacity =>
    rw [run_concat]
    exact ⟨_, byteBuffer_hold name _, _, rfl⟩
  | wrap name bytes =>
    rw [run_concat]
    exact ⟨_, byteBuffer_hold name _, _, rfl⟩
  | duplicate name _ ih =>
    obtain ⟨buffer, held, keeps⟩ := ih
    refine ⟨buffer, ?_, keeps⟩
    rw [run_concat, after, step, held]
    exact byteBuffer_hold name _
  | asReadOnly name _ ih =>
    obtain ⟨buffer, held, keeps⟩ := ih
    refine ⟨buffer.asReadOnly, ?_, keeps.asReadOnly⟩
    rw [run_concat, after, step, held]
    exact byteBuffer_hold name _
  | handleAsReadOnly name _ ih =>
    obtain ⟨buffer, held, keeps⟩ := ih
    refine ⟨buffer.asReadOnly, ?_, keeps.asReadOnly⟩
    rw [run_concat, after, step, handle, held]
    exact byteBuffer_hold name _
  | operate operation _ ih =>
    obtain ⟨buffer, held, keeps⟩ := ih
    rw [run_concat]
    exact ⟨_, byteBuffer_undergo held operation, keeps.undergo operation⟩
  | other _ other ih =>
    obtain ⟨buffer, held, found⟩ := ih
    rw [run_concat]
    exact ⟨buffer, byteBuffer_after held other, found⟩
  | idle _ idle ih =>
    rw [run_concat, idle]
    exact ih

theorem no_byteBuffer_foreign (session : Session) (name : String) (view : BufferView)
    {buffer : ByteBuffer} : (session.hold name (.foreign view)).byteBuffer name ≠ .ok buffer := by
  rw [Ne, byteBuffer_eq_ok, find?_hold, if_pos rfl]
  exact nofun

theorem no_byteBuffer_forget (session : Session) (name : String) {buffer : ByteBuffer} :
    (session.forget name).byteBuffer name ≠ .ok buffer := by
  rw [Ne, byteBuffer_eq_ok, find?_forget, if_pos rfl]
  exact nofun

/-- Whatever buffer a run leaves under a name descends from one that the run has made. -/
theorem exists_descends (initial : Memory) (steps : List Step) {name : String}
    {buffer : ByteBuffer} (held : ((fresh initial).run steps).byteBuffer name = .ok buffer) :
    ∃ origin converted, (fresh initial).Descends steps name origin converted := by
  induction steps using List.reverseRecOn generalizing name buffer with
  | nil => exact absurd (byteBuffer_eq_ok.mp held) nofun
  | append_singleton steps step ih =>
    rw [run_concat] at held
    by_cases idle : ((fresh initial).run steps).after step = (fresh initial).run steps
    · rw [idle] at held
      obtain ⟨origin, converted, descends⟩ := ih held
      exact ⟨origin, converted, descends.idle idle⟩
    by_cases other : step.target? ≠ some name
    · rw [byteBuffer_eq_ok, (change_after _ step).find?_eq other, ← byteBuffer_eq_ok] at held
      obtain ⟨origin, converted, descends⟩ := ih held
      exact ⟨origin, converted, descends.other other⟩
    have target := not_ne_iff.mp other
    -- what is made from a buffer that is not there changes nothing
    have source {given : String} (refused : ∀ error,
        ((fresh initial).run steps).byteBuffer given = .error error →
          ((fresh initial).run steps).after step = (fresh initial).run steps) :
        ∃ origin converted, (fresh initial).Descends steps given origin converted := by
      cases found : ((fresh initial).run steps).byteBuffer given with
      | ok buffer => exact ih found
      | error error => exact absurd (refused error found) idle
    cases step with
    | wrapPointer given base length =>
      cases target
      exact ⟨_, _, .wrapPointer name base length⟩
    | allocate given capacity =>
      cases target
      exact ⟨_, _, .allocate name capacity⟩
    | wrap given bytes =>
      cases target
      exact ⟨_, _, .wrap name bytes⟩
    | duplicate given _ =>
      cases target
      obtain ⟨origin, converted, descends⟩ := source fun error missing => by
        rw [after, step, missing]
        rfl
      exact ⟨origin, converted, descends.duplicate name⟩
    | asReadOnly given _ =>
      cases target
      obtain ⟨origin, converted, descends⟩ := source fun error missing => by
        rw [after, step, missing]
        rfl
      exact ⟨origin, true, descends.asReadOnly name⟩
    | handleAsReadOnly given _ =>
      cases target
      cases given with
      | none => exact absurd rfl idle
      | some given =>
        obtain ⟨origin, converted, descends⟩ := source fun error missing => by
          rw [after, step, handle, missing]
          rfl
        exact ⟨origin, true, descends.handleAsReadOnly name⟩
    | operate _ operation =>
      cases target
      obtain ⟨origin, converted, descends⟩ := source fun error missing => by
        rw [after, step, operate, missing]
      exact ⟨origin, converted, descends.operate operation⟩
    | foreign _ view =>
      cases target
      exact absurd held (no_byteBuffer_foreign _ name view)
    | «alias» given _ view =>
      cases target
      cases shown : ((fresh initial).run steps).view given with
      | error error =>
        refine absurd ?_ idle
        rw [after, step, shown]
        rfl
      | ok other =>
        rw [after, step, shown] at held
        exact absurd held (no_byteBuffer_foreign _ name _)
    | forget _ =>
      cases target
      exact absurd held (no_byteBuffer_forget _ name)
    | handleFree given =>
      cases target
      obtain ⟨origin, converted, descends⟩ := source fun error missing => by
        rw [after, step, handle, missing]
        rfl
      obtain ⟨other, found, -⟩ := descends.held
      rw [after, step, handle, found] at held
      exact absurd held (no_byteBuffer_forget _ name)
    | look _ | hasPointer _ | pointer _ | load _ _ | store _ _ | handleHasPointer _
    | handlePointer _ _ => cases target

/-! ## What is told -/

/-- What the buffer of a name tells of native memory. -/
structure Answers (session : Session) (name : String) (origin : Origin) (converted : Bool) :
    Prop where
  provenance : ∃ view, session.view name = .ok view ∧ view.provenance = origin.provenance converted
  hasPointer : session.step (.hasPointer name) = .ok (.flag origin.isNative, session)
  pointer : session.step (.pointer name) =
    match origin.address converted with
    | .error error => .error (.address error)
    | .ok address => .ok (.address address, session)

/-- What a host is told through a handle, where the bridge says `bridged` and `address` of its
buffer.  Unless the address is given, the place for it is left as it was. -/
structure Mirrored (session : Session) (source : Option String) (bridged : Bool)
    (address : Except AddressError Address) : Prop where
  hasPointer : session.step (.handleHasPointer source) =
    .ok (.number (if bridged then 1 else 0), session)
  pointer : session.step (.handlePointer source true) =
    match address with
    | .error error => .ok (.hostAddress (.ofError error) none, session)
    | .ok address => .ok (.hostAddress .ok (some address), session)
  noPlace : session.step (.handlePointer source false) = .ok (.hostAddress .null none, session)

variable {session : Session} {name : String} {buffer : ByteBuffer} {origin : Origin}
  {converted : Bool}

theorem answers (held : session.byteBuffer name = .ok buffer)
    (keeps : origin.Keeps converted buffer.storage) : session.Answers name origin converted where
  provenance := ⟨buffer.view, view_eq_ok held, keeps.view_eq.1⟩
  hasPointer := by
    rw [step, view_eq_ok held, ← keeps.hasPointer_eq]
    rfl
  pointer := by
    rw [step, view_eq_ok held, ← keeps.pointer_eq]
    change (buffer.view.pointer.mapError StepError.address >>= _) = _
    cases buffer.view.pointer <;> rfl

theorem mirrored (held : session.byteBuffer name = .ok buffer) :
    session.Mirrored (some name) buffer.view.hasPointer buffer.view.pointer where
  hasPointer := by
    rw [step, handle, held]
    rfl
  pointer := by
    rw [step, handle, held]
    change Except.ok (Reply.hostAddress (Handle.pointer (some buffer) true).1
      (Handle.pointer (some buffer) true).2, session) = _
    rw [Handle.pointer]
    cases buffer.view.pointer <;> rfl
  noPlace := by
    rw [step, handle, held]
    rfl

/-- The null handle counts as a buffer that is not bridged. -/
theorem mirrored_null (session : Session) : session.Mirrored none false (.error .notBridged) :=
  ⟨rfl, rfl, rfl⟩

/-- After every run, a buffer that was made over native memory shows the whole of its region and
gives the address until it is converted to read-only, and one with bytes of its own gives none; and
every handle, the null handle too, is told what the bridge says, in codes that differ. -/
theorem handles_mirror_bridge (initial : Memory) (steps : List Step) :
    (∀ name origin converted, (fresh initial).Descends steps name origin converted →
      ((fresh initial).run steps).Answers name origin converted ∧
        ((fresh initial).run steps).Mirrored (some name) origin.isNative
          (origin.address converted)) ∧
    (∀ name buffer, ((fresh initial).run steps).byteBuffer name = .ok buffer →
      ∃ origin converted, (fresh initial).Descends steps name origin converted) ∧
    ((fresh initial).run steps).Mirrored none false (.error .notBridged) ∧
    (∀ code other : HostCode, code.number = other.number → code = other) ∧
    ∀ name base length,
      ((fresh initial).run (steps ++ [.wrapPointer name base length])).handle (some name) =
        .ok (Handle.wrapPointer base length) := by
  refine ⟨?_, fun name buffer held => exists_descends initial steps held, mirrored_null _,
    fun code other => HostCode.number_injective, ?_⟩
  · intro name origin converted descends
    obtain ⟨buffer, held, keeps⟩ := descends.held
    refine ⟨answers held keeps, ?_⟩
    rw [← keeps.hasPointer_eq, ← keeps.pointer_eq]
    exact mirrored held
  · intro name base length
    rw [run_concat, handle]
    exact congrArg _ (byteBuffer_hold name _)

/-- The buffer that was made over the region is gone, a duplicate was written through, and a host
has converted that; of two more steps for the duplicate's name the first fails and the second has a
null handle. -/
theorem handles_mirror_bridge_derived :
    let steps : List Step := [.wrapPointer "raw" 100 4] ++ [.duplicate "raw" "copy"] ++
      [.operate "copy" (.putBytes [1, 2])] ++ [.handleAsReadOnly (some "copy") "shown"] ++
      [.handleFree (some "raw")] ++ [.duplicate "raw" "copy"] ++ [.handleAsReadOnly none "copy"]
    let session := (fresh fun _ => 7).run steps
    (fresh fun _ => 7).Descends steps "copy" (.region 100 4) false ∧
      (fresh fun _ => 7).Descends steps "shown" (.region 100 4) true ∧
      session.step (.pointer "copy") = .ok (.address 100, session) ∧
      session.step (.handlePointer (some "copy") true) =
        .ok (.hostAddress .ok (some 100), session) ∧
      session.step (.handleHasPointer (some "shown")) = .ok (.number 1, session) ∧
      session.step (.handlePointer (some "shown") true) =
        .ok (.hostAddress .readOnly none, session) ∧
      session.step (.handlePointer (some "shown") false) =
        .ok (.hostAddress .null none, session) := by
  intro steps session
  have made : (fresh fun _ => 7).Descends ([] ++ [.wrapPointer "raw" 100 4]) "raw"
      (.region 100 4) false := .wrapPointer "raw" 100 4
  have written := (made.duplicate "copy").operate (.putBytes [1, 2])
  have copy : (fresh fun _ => 7).Descends steps "copy" (.region 100 4) false :=
    (((written.other (by decide)).other (by decide)).idle rfl).idle rfl
  have shown : (fresh fun _ => 7).Descends steps "shown" (.region 100 4) true :=
    (((written.handleAsReadOnly "shown").other (by decide)).other (by decide)).other (by decide)
  obtain ⟨told, -⟩ := handles_mirror_bridge (fun _ => 7) steps
  obtain ⟨answers, mirrored⟩ := told "copy" _ _ copy
  obtain ⟨-, refused⟩ := told "shown" _ _ shown
  exact ⟨copy, shown, answers.pointer, mirrored.pointer, refused.hasPointer, refused.pointer,
    refused.noPlace⟩

end Session

end LinkGate
