import DenseMatmul.Boundary.Status
import DenseMatmul.Kernel.Bound
import DenseMatmul.Selection
/-!
# Sessions at the boundary

A session is what one caller from outside can see of past calls: the message of the last failure, and
the kernels it holds handles of. Handles are names here; one that names no kernel is null. A buffer is
`none` for a null address, which is allowed where no element is needed.

Every call answers a status. A call that fails leaves its own message, a call that succeeds leaves the
message of the last failure alone, and asking for the message takes it.
-/

namespace DenseMatmul.Boundary

structure Session where
  lastError : Option String := none
  /-- Live kernels by handle. -/
  kernels : List (String × Bound) := []
  /-- Everything reported so far, oldest first. -/
  log : List Event := []

/-- A call with its arguments. Extents are signed 32-bit integers, lengths are words. -/
inductive Request where
  | multiply (m n k : Int) (a b c : Option Buffer)
  | multiplyChecked (m n k : Int) (aLen bLen cLen : Nat) (a b c : Option Buffer)
  /-- `output` is whether there is an address to store the handle at. -/
  | create (handle : String) (m n k : Int) (variant : Variant) (output : Bool)
  | invoke (handle : String) (a b c : Option Buffer)
  /-- `wanted` tells for each extent whether there is an address to store it at. -/
  | dimensions (handle : String) (wanted : Bool × Bool × Bool) (stored : Int × Int × Int)
  | destroy (handle : String)
  | lastError

/-- What a call leaves for the caller. -/
inductive Response where
  /-- The output buffer afterwards. -/
  | product (status : Status) (c : Option Buffer)
  | created (status : Status) (stored : Bool)
  /-- The three outputs afterwards. -/
  | dimensions (status : Status) (stored : Int × Int × Int)
  | destroyed (status : Status)
  | message (text : Option String)
  deriving DecidableEq

/-! ## Buffers -/

/-- The first `length` elements of a buffer, which may be null only if there are none. -/
def borrow (pointer : Pointer) (buffer : Option Buffer) (length : Nat) : Logged CallError Buffer :=
  if length = 0 then pure #[]
  else match buffer with
    | none => .refuse (.nullBuffer pointer)
    | some data => .ofFault (data.slice 0 length)

/-- The buffer with its first elements replaced. -/
def giveBack (front : Buffer) (whole : Option Buffer) : Option Buffer :=
  whole.map fun data => front ++ data.extract front.size data.size

/-- Borrows A, B and C, in this order, and multiplies. Without all three, C is not touched. -/
def multiplyBorrowed (kernel : Kernel) (s : Shape) (aLen bLen cLen : Nat) (a b c : Option Buffer) :
    Logged CallError Unit × Option Buffer :=
  let borrowed : Logged CallError (Buffer × Buffer × Buffer) := do
    return (← borrow .a a aLen, ← borrow .b b bLen, ← borrow .c c cLen)
  match borrowed.result with
  | .error e => ({ result := .error e, log := borrowed.log }, c)
  | .ok (a, b, front) =>
    let call := kernel.multiplyInto s a b front
    (call.answer.mapError .refused, giveBack call.c c)

/-- Refused by the library, before a buffer is looked at. -/
def refusable {α : Type} (x : Except MatmulError α) : Logged CallError α :=
  (Logged.ofExcept x).mapError .refused

/-- The shape of signed extents, and the lengths it needs. -/
def requiredLengths (m n k : Int) : Logged CallError (Shape × Nat × Nat × Nat) := do
  let s ← refusable (Shape.ofSigned m n k)
  return (s, ← refusable s.aLen, ← refusable s.bLen, ← refusable s.cLen)

/-- The shape of signed extents, and the lengths declared for it if they are long enough. -/
def declaredLengths (m n k : Int) (aLen bLen cLen : Nat) :
    Logged CallError (Shape × Nat × Nat × Nat) := do
  let s ← refusable (Shape.ofSigned m n k)
  refusable (s.validate aLen bLen cLen)
  return (s, aLen, bLen, cLen)

/-- Multiplies once the shape and lengths are known. -/
def multiplyWith (kernel : Kernel) (lengths : Logged CallError (Shape × Nat × Nat × Nat))
    (a b c : Option Buffer) : Logged CallError Unit × Option Buffer :=
  match lengths.result with
  | .error e => ({ result := .error e, log := lengths.log }, c)
  | .ok (s, aLen, bLen, cLen) => multiplyBorrowed kernel s aLen bLen cLen a b c

/-! ## Calls -/

namespace Session

/-- Leaves a message. One that holds a NUL cannot be handed out: it is lost, and the one before it is
too. -/
def setError (session : Session) (text : String) : Session :=
  { session with
    lastError := if text.contains '\x00' then none else some text
    log := session.log ++ [⟨.debug, s!"ffi error: {text}"⟩] }

/-- Ends a call: its events are kept, and its failure becomes a status and a message. -/
def finish {α : Type} (session : Session) (call : Logged CallError α) :
    Status × Option α × Session :=
  let session := { session with log := session.log ++ call.log }
  match call.result with
  | .ok x => (.ok, some x, session)
  | .error e =>
    let error := CallError.ofFailure e
    (error.status, none, session.setError error.message)

/-- The shape of a held kernel. -/
def shapeOf (session : Session) (handle : String) : Logged CallError Shape :=
  match session.kernels.lookup handle with
  | none => .refuse .nullKernel
  | some bound => pure bound.shape

/-- Frees a kernel. -/
def erase (session : Session) (handle : String) : Session :=
  { session with kernels := session.kernels.filter (·.1 != handle) }

/-- Holds a kernel under a handle, in place of the one there was. -/
def hold (session : Session) (handle : String) (bound : Bound) : Session :=
  { session with kernels := (handle, bound) :: (session.erase handle).kernels }

/-- A kernel of the variant bound to the extents, if there is an address for its handle. -/
def newKernel (machineThreads : Nat) (m n k : Int) (variant : Variant) (output : Bool) :
    Logged CallError Bound := do
  if !output then .refuse .nullOutput
  let s ← refusable (Shape.ofSigned m n k)
  let selection : Selection := { Selection.standard machineThreads with variant }
  let kernel ← selection.build
  (Bound.ofKernel s kernel).mapError .refused

/-- Multiplies with a held kernel and the lengths it was bound with. -/
def invoke (session : Session) (handle : String) (a b c : Option Buffer) :
    Logged CallError Unit × Option Buffer :=
  match session.kernels.lookup handle with
  | none => (.refuse .nullKernel, c)
  | some bound => multiplyBorrowed bound.kernel bound.shape bound.aLen bound.bLen bound.cLen a b c

/-- A dimension as a signed 32-bit integer. -/
def narrow (value : Nat) : Logged CallError Int :=
  if value < 0x80000000 then pure value else .refuse (.wideDimension value)

/-- All three dimensions, of which the first too wide is refused. -/
def narrowAll (s : Shape) : Logged CallError (Int × Int × Int) := do
  return (← narrow s.m, ← narrow s.n, ← narrow s.k)

/-- Stores the values that are wanted over what is there. -/
def storeWanted (wanted : Bool × Bool × Bool) (values stored : Int × Int × Int) : Int × Int × Int :=
  (if wanted.1 then values.1 else stored.1,
    if wanted.2.1 then values.2.1 else stored.2.1,
    if wanted.2.2 then values.2.2 else stored.2.2)

/-- The response to a call, and the session after it. -/
def step (machineThreads : Nat) (session : Session) : Request → Response × Session
  | .multiply m n k a b c =>
    let (call, c) := multiplyWith .reference (requiredLengths m n k) a b c
    let (status, _, session) := session.finish call
    (.product status c, session)
  | .multiplyChecked m n k aLen bLen cLen a b c =>
    let (call, c) := multiplyWith .reference (declaredLengths m n k aLen bLen cLen) a b c
    let (status, _, session) := session.finish call
    (.product status c, session)
  | .create handle m n k variant output =>
    match session.finish (newKernel machineThreads m n k variant output) with
    | (status, some bound, session) => (.created status true, session.hold handle bound)
    | (status, none, session) => (.created status false, session)
  | .invoke handle a b c =>
    let (call, c) := session.invoke handle a b c
    let (status, _, session) := session.finish call
    (.product status c, session)
  | .dimensions handle wanted stored =>
    match session.finish (do narrowAll (← session.shapeOf handle)) with
    | (status, some values, session) =>
      (.dimensions status (storeWanted wanted values stored), session)
    | (status, none, session) => (.dimensions status stored, session)
  | .destroy handle => (.destroyed .ok, session.erase handle)
  | .lastError => (.message session.lastError, { session with lastError := none })

end Session

end DenseMatmul.Boundary
