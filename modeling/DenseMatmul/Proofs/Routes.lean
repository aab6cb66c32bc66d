import DenseMatmul.Boundary.Session
import DenseMatmul.Proofs.Bands
/-!
# Three routes to one product

A caller can multiply in one call, in one call with the lengths of its buffers declared, or by way of
a handle that is made for the extents first. `routes_agree` says that it cannot tell them apart: not
by the status, the output buffer or the message, whichever kernel the handle holds.

A call can be told from another only by its result (`finish_status`, `finish_lastError`), so the
events it reports are left out early: what remains of a product is its result and what it leaves of C
(`seen`).
-/

namespace DenseMatmul.Boundary

/-! ## The end of a call -/

/-- The status of a result. -/
def statusOf {α : Type} : Except (Failure CallError) α → Status
  | .ok _ => .ok
  | .error e => (CallError.ofFailure e).status

/-- The message after a result, where `last` was the message before. -/
def messageAfter {α : Type} (last : Option String) : Except (Failure CallError) α → Option String
  | .ok _ => last
  | .error e =>
    let text := (CallError.ofFailure e).message
    if text.contains '\x00' then none else some text

namespace Session

variable {α : Type} (session : Session) (call : Logged CallError α)

theorem finish_status : (session.finish call).1 = statusOf call.result := by
  unfold finish
  cases call.result <;> rfl

theorem finish_lastError :
    (session.finish call).2.2.lastError = messageAfter session.lastError call.result := by
  unfold finish
  cases call.result <;> rfl

end Session

/-! ## What can be told of a call -/

/-- All that a caller can tell of a call: the response, and the message there is afterwards. -/
def Session.call (session : Session) (machineThreads : Nat) (request : Request) :
    Response × Option String :=
  let (response, session) := session.step machineThreads request
  (response, session.lastError)

/-- Makes a handle for the extents, and multiplies with it if that went well. Where it did not, the
output buffer is not handed over at all. -/
def Session.callByHandle (session : Session) (machineThreads : Nat) (handle : String)
    (variant : Variant) (m n k : Int) (a b c : Option Buffer) : Response × Option String :=
  match session.step machineThreads (.create handle m n k variant true) with
  | (.created .ok _, session) => session.call machineThreads (.invoke handle a b c)
  | (.created status _, session) => (.product status c, session.lastError)
  | (response, session) => (response, session.lastError)

/-- A product without the events on its way. -/
def seen (x : Logged CallError Unit × Option Buffer) :
    Except (Failure CallError) Unit × Option Buffer := (x.1.result, x.2)

/-- What can be told of a product, where `last` was the message before. -/
def told (last : Option String) (x : Except (Failure CallError) Unit × Option Buffer) :
    Response × Option String := (.product (statusOf x.1) x.2, messageAfter last x.1)

namespace Session

variable (session : Session) (machineThreads : Nat) (a b c : Option Buffer)

theorem call_multiply (m n k : Int) :
    session.call machineThreads (.multiply m n k a b c) =
      told session.lastError (seen (multiplyWith .reference (requiredLengths m n k) a b c)) := by
  simp only [call, step, finish_status, finish_lastError]
  rfl

theorem call_multiplyChecked (m n k : Int) (aLen bLen cLen : Nat) :
    session.call machineThreads (.multiplyChecked m n k aLen bLen cLen a b c) =
      told session.lastError
        (seen (multiplyWith .reference (declaredLengths m n k aLen bLen cLen) a b c)) := by
  simp only [call, step, finish_status, finish_lastError]
  rfl

theorem call_invoke (handle : String) :
    session.call machineThreads (.invoke handle a b c) =
      told session.lastError (seen (session.invoke handle a b c)) := by
  simp only [call, step, finish_status, finish_lastError]
  rfl

end Session

/-! ## Lengths -/

/-- A refusal of the library, as the boundary has it. -/
def asRefused (e : MatmulError) : Failure CallError := .refused (.refused e)

@[simp] theorem result_refusable {α : Type} (x : Except MatmulError α) :
    (refusable x).result = x.mapError asRefused := by
  cases x <;> rfl

theorem ofSigned_eq_ok {m n k : Int} {s : Shape} (h : Shape.ofSigned m n k = .ok s) :
    0 ≤ m ∧ 0 ≤ n ∧ 0 ≤ k ∧ s = ⟨m.toNat, n.toNat, k.toNat⟩ := by
  simp only [Shape.ofSigned, Shape.ofSigned.extent] at h
  split at h
  · split at h
    · split at h
      · exact ⟨‹_›, ‹_›, ‹_›, (Except.ok.inj h).symm⟩
      · cases h
    · cases h
  · cases h

theorem result_requiredLengths (m n k : Int) : (requiredLengths m n k).result =
    (do let s ← Shape.ofSigned m n k; return (s, ← s.lengths)).mapError asRefused := by
  simp only [requiredLengths, Shape.lengths, Logged.result_bind, result_refusable,
    Logged.mapError_bind, bind_assoc, pure_bind]
  rfl

/-- Declaring the lengths of exact buffers comes to the same as leaving them out. -/
theorem declaredLengths_exact {m n k : Int} {aLen bLen cLen : Nat}
    (h : 0 ≤ m → 0 ≤ n → 0 ≤ k →
      aLen = m.toNat * k.toNat ∧ bLen = k.toNat * n.toNat ∧ cLen = m.toNat * n.toNat) :
    (declaredLengths m n k aLen bLen cLen).result = (requiredLengths m n k).result := by
  rw [result_requiredLengths]
  simp only [declaredLengths, Logged.result_bind, result_refusable]
  cases hs : Shape.ofSigned m n k with
  | error e => rfl
  | ok s =>
    obtain ⟨hm, hn, hk, rfl⟩ := ofSigned_eq_ok hs
    obtain ⟨rfl, rfl, rfl⟩ := h hm hn hk
    have hv := Shape.validate_exact ⟨m.toNat, n.toNat, k.toNat⟩
    simp only [bind, Except.bind, ← hv, Logged.mapError_ok]
    cases Shape.validate _ _ _ _ <;> rfl

theorem seen_multiplyWith {lengths lengths' : Logged CallError (Shape × Nat × Nat × Nat)}
    (h : lengths.result = lengths'.result) (kernel : Kernel) (a b c : Option Buffer) :
    seen (multiplyWith kernel lengths a b c) = seen (multiplyWith kernel lengths' a b c) := by
  unfold multiplyWith
  rw [h]
  cases lengths'.result <;> rfl

/-! ## Handles -/

@[simp] theorem Session.lookup_hold (session : Session) (handle : String) (bound : Bound) :
    (session.hold handle bound).kernels.lookup handle = some bound := by
  simp [hold]

theorem CallError.status_ne_ok (e : CallError) : e.status ≠ .ok := by
  cases e <;> simp [status]

theorem lengths_bound (bound : Bound) :
    bound.shape.lengths = .ok (bound.aLen, bound.bLen, bound.cLen) := by
  rw [Shape.lengths, bound.aLen_eq, bound.bLen_eq, bound.cLen_eq]
  rfl

/-- Binding fails where a length is no word, and nowhere else. -/
theorem ofKernel_cases (s : Shape) (kernel : Kernel) :
    (∃ e, s.lengths = .error e ∧ (Bound.ofKernel s kernel).result = .error (.refused e)) ∨
      ∃ bound, (Bound.ofKernel s kernel).result = .ok bound ∧ bound.shape = s ∧
        bound.kernel = kernel := by
  unfold Bound.ofKernel Shape.lengths
  split
  case h_1 e ha => exact .inl ⟨e, by rw [ha]; rfl, rfl⟩
  case h_2 e ha hb => exact .inl ⟨e, by rw [ha, hb]; rfl, rfl⟩
  case h_3 e ha hb hc => exact .inl ⟨e, by rw [ha, hb, hc]; rfl, rfl⟩
  case h_4 => exact .inr ⟨_, rfl, rfl, rfl⟩

/-- A handle is refused for the extents that a product is refused for, and otherwise keeps the
lengths that a product needs. -/
theorem newKernel_cases (m n k : Int) (machineThreads : Nat) (variant : Variant) :
    let call := Session.newKernel machineThreads m n k variant true
    (∃ e, (requiredLengths m n k).result = .error e ∧ call.result = .error e) ∨
      ∃ bound, (requiredLengths m n k).result =
          .ok (bound.shape, bound.aLen, bound.bLen, bound.cLen) ∧
        call.result = .ok bound ∧ bound.kernel = Selection.kernel ⟨variant, machineThreads⟩ := by
  intro call
  -- Choosing the kernel reports an event and cannot fail, so only the shape and the binding count.
  have hcall : call.result = (do
      let s ← (Shape.ofSigned m n k).mapError asRefused
      (Bound.ofKernel s (Selection.kernel ⟨variant, machineThreads⟩)).result.mapError
        (Failure.map .refused)) := by
    simp only [call, Session.newKernel, Bool.not_true, Bool.false_eq_true, if_false,
      Logged.result_bind, result_refusable]
    rfl
  rw [hcall, result_requiredLengths]
  cases Shape.ofSigned m n k with
  | error e => exact .inl ⟨_, rfl, rfl⟩
  | ok s =>
    simp only [Logged.mapError_ok, bind, Except.bind]
    obtain ⟨e, hl, hb⟩ | ⟨bound, hb, rfl, hk⟩ :=
      ofKernel_cases s (Selection.kernel ⟨variant, machineThreads⟩)
    · exact .inl ⟨_, by rw [hl]; rfl, by rw [hb]; rfl⟩
    · exact .inr ⟨bound, by rw [lengths_bound]; rfl, by rw [hb]; rfl, hk⟩

/-- Which kernel multiplied cannot be told if it agrees with the reference. -/
theorem seen_multiplyBorrowed {kernel : Kernel} {s : Shape}
    (h : ∀ a b c, (kernel.multiplyInto s a b c).Agrees (Reference.multiplyChecked s a b c))
    (aLen bLen cLen : Nat) (a b c : Option Buffer) :
    seen (multiplyBorrowed kernel s aLen bLen cLen a b c) =
      seen (multiplyBorrowed .reference s aLen bLen cLen a b c) := by
  unfold multiplyBorrowed
  dsimp only
  split
  · rfl
  · rename_i a b front _
    simp only [seen, Logged.mapError, (h a b front).result, (h a b front).c]
    rfl

theorem step_create_refused (session : Session) {machineThreads : Nat} {m n k : Int}
    {variant : Variant} {e : Failure CallError}
    (h : (Session.newKernel machineThreads m n k variant true).result = .error e)
    (handle : String) :
    ∃ after : Session, session.step machineThreads (.create handle m n k variant true) =
        (.created (CallError.ofFailure e).status false, after) ∧
      after.lastError = messageAfter session.lastError (.error e : Except _ Unit) := by
  simp only [Session.step, Session.finish, h]
  exact ⟨_, rfl, rfl⟩

theorem step_create_held (session : Session) {machineThreads : Nat} {m n k : Int}
    {variant : Variant} {bound : Bound}
    (h : (Session.newKernel machineThreads m n k variant true).result = .ok bound)
    (handle : String) :
    ∃ after : Session, session.step machineThreads (.create handle m n k variant true) =
        (.created .ok true, after.hold handle bound) ∧
      after.lastError = session.lastError := by
  simp only [Session.step, Session.finish, h]
  exact ⟨_, rfl, rfl⟩

/-- By handle a product is what it is in one call, though a held kernel makes it. -/
theorem call_byHandle (session : Session) (machineThreads : Nat) (handle : String)
    (variant : Variant) (m n k : Int) (a b c : Option Buffer) :
    session.callByHandle machineThreads handle variant m n k a b c =
      told session.lastError (seen (multiplyWith .reference (requiredLengths m n k) a b c)) := by
  unfold Session.callByHandle multiplyWith
  obtain ⟨e, hlengths, hcall⟩ | ⟨bound, hlengths, hcall, hkernel⟩ :=
    newKernel_cases m n k machineThreads variant
  · -- No handle: the two fail alike, and a status other than `ok` keeps the kernel from being asked.
    obtain ⟨after, hstep, hlast⟩ := step_create_refused session hcall handle
    rw [hlengths, hstep]
    simp only [seen, told, statusOf, ← hlast]
    cases hstatus : (CallError.ofFailure e).status with
    | ok => exact absurd hstatus (CallError.status_ne_ok _)
    | invalidArgument => rfl
    | internal => rfl
  · -- A handle: the kernel behind it is one that agrees with the reference.
    obtain ⟨after, hstep, hlast⟩ := step_create_held session hcall handle
    have hagrees : ∀ a b c, (bound.kernel.multiplyInto bound.shape a b c).Agrees
        (Reference.multiplyChecked bound.shape a b c) := fun a b c => by
      rw [hkernel]
      exact Selection.kernel_agrees _ bound.shape a b c
    rw [hlengths, hstep]
    dsimp only
    rw [Session.call_invoke, Session.invoke, Session.lookup_hold, ← seen_multiplyBorrowed hagrees,
      ← hlast]
    rfl

/-! ## Agreement -/

/-- All three routes give the same status, leave the same output buffer, and leave the same message:
the direct call, the call that is told the lengths of exact buffers, and the call by handle. -/
theorem routes_agree (session : Session) (machineThreads : Nat) (handle : String)
    (variant : Variant) (m n k : Int) (aLen bLen cLen : Nat) (a b c : Option Buffer)
    (h : 0 ≤ m → 0 ≤ n → 0 ≤ k →
      aLen = m.toNat * k.toNat ∧ bLen = k.toNat * n.toNat ∧ cLen = m.toNat * n.toNat) :
    let direct := session.call machineThreads (.multiply m n k a b c)
    session.call machineThreads (.multiplyChecked m n k aLen bLen cLen a b c) = direct ∧
      session.callByHandle machineThreads handle variant m n k a b c = direct := by
  intro direct
  have hdirect := session.call_multiply machineThreads a b c m n k
  refine ⟨?_, (call_byHandle ..).trans hdirect.symm⟩
  rw [Session.call_multiplyChecked, seen_multiplyWith (declaredLengths_exact h)]
  exact hdirect.symm

/-- A row times a column without the row: every route refuses it, with C as it was. -/
theorem routes_agree_null_a :
    let session : Session := { lastError := some "kernel is null" }
    let b : Buffer := #[.one, .one]
    let c : Buffer := #[.nan]
    let refused := (Response.product .invalidArgument (some c), some "a is null")
    session.call 4 (.multiplyChecked 1 1 2 2 2 1 none b c) = refused ∧
      session.callByHandle 4 "h" .rowParallel 1 1 2 none b c = refused := by
  intro session b c refused
  obtain ⟨hchecked, hhandle⟩ := routes_agree session 4 "h" .rowParallel 1 1 2 2 2 1 none b c
    (fun _ _ _ => by decide)
  have hseen : seen (multiplyWith .reference (requiredLengths 1 1 2) none b c) =
      (.error (.refused (.nullBuffer .a)), some c) := rfl
  have hdirect : session.call 4 (.multiply 1 1 2 none b c) = refused := by
    rw [Session.call_multiply, hseen]
    have htext : "a is null".contains '\x00' = false := by simp
    exact congrArg (fun lost => (Response.product .invalidArgument (some c),
      if lost then none else some "a is null")) htext
  exact ⟨hchecked.trans hdirect, hhandle.trans hdirect⟩

end DenseMatmul.Boundary
