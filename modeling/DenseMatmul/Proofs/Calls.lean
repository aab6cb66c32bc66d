import DenseMatmul.Proofs.Routes
import DenseMatmul.Proofs.Tables
/-!
# What one call does

The status of a call and what it leaves in the channel of the last message follow from the error it
fails with, if it fails (`outcome_step`). What it does to the table of handles is said
handle by handle (`lookup_step`).
-/

namespace DenseMatmul.Boundary

variable {α β : Type}

/-! ## How a call ends -/

/-- The error that a result makes of a call. -/
def errorOf : Except (Failure CallError) α → Option CallError
  | .ok _ => none
  | .error e => some (CallError.ofFailure e)

/-- The error a call fails with. Calls that free a handle or ask for the message never fail. -/
def Session.failure? (machineThreads : Nat) (session : Session) : Request → Option CallError
  | .multiply m n k a b c => errorOf (multiplyWith .reference (requiredLengths m n k) a b c).1.result
  | .multiplyChecked m n k aLen bLen cLen a b c =>
    errorOf (multiplyWith .reference (declaredLengths m n k aLen bLen cLen) a b c).1.result
  | .create _ m n k variant output =>
    errorOf (Session.newKernel machineThreads m n k variant output).result
  | .invoke handle a b c => errorOf (session.invoke handle a b c).1.result
  | .dimensions handle _ _ => errorOf (session.shapeOf handle >>= Session.narrowAll).result
  | .destroy _ => none
  | .lastError => none

/-- The status in a response; asking for the message gives none. -/
def Response.status? : Response → Option Status
  | .product status _ => some status
  | .created status _ => some status
  | .dimensions status _ => some status
  | .destroyed status => some status
  | .message _ => none

def Status.ofError? : Option CallError → Status
  | none => .ok
  | some e => e.status

/-- What the channel holds after a call that fails so, or not at all. -/
def channelAfter (last : Option String) : Option CallError → Option String
  | none => last
  | some e => if e.message.contains '\x00' then none else some e.message

theorem statusOf_eq (x : Except (Failure CallError) α) : statusOf x = .ofError? (errorOf x) := by
  cases x <;> rfl

theorem messageAfter_eq (last : Option String) (x : Except (Failure CallError) α) :
    messageAfter last x = channelAfter last (errorOf x) := by
  cases x <;> rfl

namespace Session

variable {machineThreads : Nat} {session : Session} {request : Request}

theorem finish_kernels (session : Session) (call : Logged CallError α) :
    (session.finish call).2.2.kernels = session.kernels := by
  unfold finish
  cases call.result <;> rfl

/-- The status of a call, and what is in the channel afterwards, tell its error and nothing else. -/
theorem outcome_step (machineThreads : Nat) (session : Session) (h : request ≠ .lastError) :
    (session.step machineThreads request).1.status? =
        some (.ofError? (session.failure? machineThreads request)) ∧
      (session.step machineThreads request).2.lastError =
        channelAfter session.lastError (session.failure? machineThreads request) := by
  cases request with
  | create handle m n k variant output =>
    simp only [step, finish, failure?]
    cases (newKernel machineThreads m n k variant output).result <;> exact ⟨rfl, rfl⟩
  | dimensions handle wanted stored =>
    simp only [step, finish, failure?]
    cases (session.shapeOf handle >>= narrowAll).result <;> exact ⟨rfl, rfl⟩
  | destroy handle => exact ⟨rfl, rfl⟩
  | lastError => exact absurd rfl h
  | _ =>
    -- The three products end alike, whatever they multiply with.
    simp only [step, finish_status, finish_lastError, statusOf_eq, messageAfter_eq, failure?,
      Response.status?]
    exact ⟨trivial, trivial⟩

/-! ## The table of handles -/

theorem lookup_erase (session : Session) (handle other : String) :
    (session.erase handle).kernels.lookup other =
      if other = handle then none else session.kernels.lookup other :=
  lookup_erased ..

theorem lookup_hold_if (session : Session) (handle other : String) (bound : Bound) :
    (session.hold handle bound).kernels.lookup other =
      if other = handle then some bound else session.kernels.lookup other :=
  lookup_inserted ..

/-- What is found under a handle after a call: a kernel just made, nothing if the handle was just
freed, and otherwise what was there. -/
theorem lookup_step (machineThreads : Nat) (session : Session) (request : Request) (other : String) :
    (session.step machineThreads request).2.kernels.lookup other =
      match request with
      | .create handle m n k variant output =>
        match (newKernel machineThreads m n k variant output).result with
        | .ok bound => if other = handle then some bound else session.kernels.lookup other
        | .error _ => session.kernels.lookup other
      | .destroy handle => if other = handle then none else session.kernels.lookup other
      | _ => session.kernels.lookup other := by
  cases request with
  | create handle m n k variant output =>
    simp only [step, finish]
    cases (newKernel machineThreads m n k variant output).result with
    | ok bound => exact lookup_hold_if ..
    | error e => rfl
  | dimensions handle wanted stored =>
    simp only [step, finish]
    cases (session.shapeOf handle >>= narrowAll).result <;> rfl
  | destroy handle => exact lookup_erase ..
  | lastError => rfl
  | _ => simp only [step, finish_kernels]

end Session

end DenseMatmul.Boundary
