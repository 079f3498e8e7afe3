import LinkGate.Buffer.Handle

/-!
# Buffer sessions

A run over native memory and any number of named buffers.  An `Operation` acts on one byte buffer, a
`Step` on the whole session: it makes buffers, lets one operate, asks for addresses, touches memory
directly or goes through handles.  A step that fails leaves the session as it was.
-/

set_option autoImplicit false

namespace LinkGate

inductive Operation where
  | setPosition (position : Nat)
  | setLimit (limit : Nat)
  | clear
  | flip
  | get (index : Nat)
  | put (index : Nat) (value : UInt8)
  | getNext
  | putNext (value : UInt8)
  /-- Fills a destination that held `old`. -/
  | getBytes (old : Bytes)
  | putBytes (source : Bytes)
  | ownBytes
  deriving DecidableEq, Repr

inductive Reply where
  | done
  | byte (value : UInt8)
  | bytes (value : Bytes)
  | ownBytes (value : Option Bytes)
  | flag (value : Bool)
  | address (value : Address)
  | number (value : Nat)
  | handle (isNull : Bool)
  | hostAddress (code : HostCode) (value : Option Address)
  deriving DecidableEq, Repr

namespace Operation

def run (buffer : ByteBuffer) (memory : Memory) :
    Operation → Except BufferError (Reply × ByteBuffer × Memory)
  | setPosition position => do
    let buffer ← buffer.setPosition position
    return (.done, buffer, memory)
  | setLimit limit => do
    let buffer ← buffer.setLimit limit
    return (.done, buffer, memory)
  | clear => .ok (.done, buffer.clear, memory)
  | flip => .ok (.done, buffer.flip, memory)
  | get index => do
    let value ← buffer.get memory index
    return (.byte value, buffer, memory)
  | put index value => do
    let (buffer, memory) ← buffer.put memory index value
    return (.done, buffer, memory)
  | getNext => do
    let (value, buffer) ← buffer.getNext memory
    return (.byte value, buffer, memory)
  | putNext value => do
    let (buffer, memory) ← buffer.putNext memory value
    return (.done, buffer, memory)
  | getBytes old => do
    let (value, buffer) ← buffer.getBytes memory old.length
    return (.bytes value, buffer, memory)
  | putBytes source => do
    let (buffer, memory) ← buffer.putBytes memory source
    return (.done, buffer, memory)
  | ownBytes => .ok (.ownBytes buffer.ownBytes?, buffer, memory)

/-- What the destination of a read holds after it: what was read, or what it held before. -/
def destination? {ε : Type} : Operation → Except ε Reply → Option Bytes
  | getBytes _, .ok (.bytes value) => some value
  | getBytes old, _ => some old
  | _, _ => none

end Operation

inductive Holding where
  | buffer (buffer : ByteBuffer)
  /-- A buffer of another make, of which only its view is known. -/
  | foreign (view : BufferView)
  deriving DecidableEq, Repr

def Holding.view : Holding → BufferView
  | buffer b => b.view
  | foreign view => view

structure Session where
  memory : Memory
  holdings : List (String × Holding)

inductive Step where
  | wrapPointer (name : String) (base : Address) (length : Nat)
  | allocate (name : String) (capacity : Nat)
  | wrap (name : String) (bytes : Bytes)
  | duplicate (source name : String)
  | asReadOnly (source name : String)
  | foreign (name : String) (view : BufferView)
  /-- A foreign buffer that shows the provenance of another. -/
  | alias (source name : String) (view : BufferView)
  | operate (name : String) (operation : Operation)
  | look (name : String)
  | hasPointer (name : String)
  | pointer (name : String)
  | forget (name : String)
  | load (start : Address) (count : Nat)
  | store (start : Address) (bytes : Bytes)
  | handleAsReadOnly (source : Option String) (name : String)
  | handleHasPointer (source : Option String)
  | handlePointer (source : Option String) (hasPlace : Bool)
  | handleFree (source : Option String)
  deriving DecidableEq, Repr

inductive StepError where
  | buffer (error : BufferError)
  | address (error : AddressError)
  /-- No buffer of the kind that the step asks for has this name. -/
  | unknown (name : String)
  deriving DecidableEq, Repr

namespace Session

def find? (session : Session) (name : String) : Option Holding :=
  session.holdings.lookup name

def view (session : Session) (name : String) : Except StepError BufferView :=
  match session.find? name with
  | none => .error (.unknown name)
  | some holding => .ok holding.view

def byteBuffer (session : Session) (name : String) : Except StepError ByteBuffer :=
  match session.find? name with
  | some (.buffer buffer) => .ok buffer
  | _ => .error (.unknown name)

def setHolding (name : String) (holding : Holding) :
    List (String × Holding) → List (String × Holding)
  | [] => [(name, holding)]
  | (n, h) :: rest =>
    if n = name then (n, holding) :: rest else (n, h) :: setHolding name holding rest

def hold (session : Session) (name : String) (holding : Holding) : Session :=
  { session with holdings := setHolding name holding session.holdings }

def forget (session : Session) (name : String) : Session :=
  { session with holdings := session.holdings.filter fun entry => entry.1 != name }

def handle (session : Session) : Option String → Except StepError Handle
  | none => .ok none
  | some name => (session.byteBuffer name).map some

def operate (session : Session) (name : String) (operation : Operation) :
    Except StepError (Reply × Session) :=
  match session.byteBuffer name with
  | .error error => .error error
  | .ok buffer =>
    match operation.run buffer session.memory with
    | .error error => .error (.buffer error)
    | .ok (reply, buffer, memory) =>
      .ok (reply, { session with memory := memory }.hold name (.buffer buffer))

def step (session : Session) : Step → Except StepError (Reply × Session)
  | .wrapPointer name base length =>
    .ok (.done, session.hold name (.buffer (.wrapPointer base length)))
  | .allocate name capacity => .ok (.done, session.hold name (.buffer (.allocate capacity)))
  | .wrap name bytes => .ok (.done, session.hold name (.buffer (.wrap bytes)))
  | .duplicate source name => do
    let buffer ← session.byteBuffer source
    return (.done, session.hold name (.buffer buffer.duplicate))
  | .asReadOnly source name => do
    let buffer ← session.byteBuffer source
    return (.done, session.hold name (.buffer buffer.asReadOnly))
  | .foreign name view => .ok (.done, session.hold name (.foreign view))
  | .alias source name view => do
    let shown ← session.view source
    return (.done, session.hold name (.foreign { view with provenance := shown.provenance }))
  | .operate name operation => session.operate name operation
  | .look name => do
    let _ ← session.view name
    return (.done, session)
  | .hasPointer name => do
    let view ← session.view name
    return (.flag view.hasPointer, session)
  | .pointer name => do
    let view ← session.view name
    let address ← view.pointer.mapError .address
    return (.address address, session)
  | .forget name => .ok (.done, session.forget name)
  | .load start count => .ok (.bytes (session.memory.load start count), session)
  | .store start bytes =>
    .ok (.done, { session with memory := session.memory.store start bytes })
  | .handleAsReadOnly source name => do
    let handle ← session.handle source
    match Handle.asReadOnly handle with
    | none => return (.handle true, session)
    | some buffer => return (.handle false, session.hold name (.buffer buffer))
  | .handleHasPointer source => do
    let handle ← session.handle source
    return (.number (Handle.hasPointer handle), session)
  | .handlePointer source hasPlace => do
    let handle ← session.handle source
    let (code, address) := Handle.pointer handle hasPlace
    return (.hostAddress code address, session)
  | .handleFree source => do
    let _ ← session.handle source
    match source with
    | none => return (.done, session)
    | some name => return (.done, session.forget name)

/-- The session after a step, whether it failed or not. -/
def after (session : Session) (step : Step) : Session :=
  match session.step step with
  | .error _ => session
  | .ok (_, next) => next

end Session

end LinkGate
