import DenseMatmul.Proofs.Calls
/-!
# Why a call fails

`Cause` lists all that a call at the boundary can fail with, and what must have happened then. Whatever
a call fails with has a cause (`cause_of_failure`), so what holds of every error is a case analysis over
the list, and no other proof has to look at the calls again.
-/

namespace DenseMatmul.Boundary

variable {α β : Type}

/-- The buffer is null, or has at least so many elements. -/
def Holds (buffer : Option Buffer) (length : Nat) : Prop := ∀ data, buffer = some data → length ≤ data.size

/-- The buffers of a call that are not null are as long as the extents, or the lengths declared, say. -/
def Request.BuffersHold (session : Session) : Request → Prop
  | .multiply m n k a b c => 0 ≤ m → 0 ≤ n → 0 ≤ k →
    Holds a (m.toNat * k.toNat) ∧ Holds b (k.toNat * n.toNat) ∧ Holds c (m.toNat * n.toNat)
  | .multiplyChecked _ _ _ aLen bLen cLen a b c => Holds a aLen ∧ Holds b bLen ∧ Holds c cLen
  | .invoke handle a b c => ∀ bound, session.kernels.lookup handle = some bound →
    Holds a bound.aLen ∧ Holds b bound.bLen ∧ Holds c bound.cLen
  | _ => True

/-- The handle that a call uses. -/
def Request.handle? : Request → Option String
  | .invoke handle _ _ _ => some handle
  | .dimensions handle _ _ => some handle
  | .destroy handle => some handle
  | _ => none

/-- The errors of a shape or of lengths. -/
inductive OfLengths : MatmulError → Prop
  | negativeExtent (axis : Axis) (value : Int) :
    OfLengths (.invalidArgument (.negativeExtent axis value))
  | dimensionOverflow (rows cols : Nat) : OfLengths (.dimensionOverflow rows cols)
  | bufferTooShort (buffer : Operand) (required got : Nat) :
    OfLengths (.bufferTooShort buffer required got)

/-- Everything a call can fail with, and what must have happened then. -/
inductive Cause (session : Session) : Request → CallError → Prop
  /-- The extents or the lengths were refused, by the boundary or by the reference. -/
  | lengths {request : Request} {e : MatmulError} : OfLengths e → Cause session request (.refused e)
  | nullBuffer {request : Request} (pointer : Pointer) : Cause session request (.nullBuffer pointer)
  /-- A buffer ended before the length it was to have. -/
  | shortBuffer {request : Request} : ¬ request.BuffersHold session → Cause session request .halted
  | nullOutput {handle : String} {m n k : Int} {variant : Variant} :
    Cause session (.create handle m n k variant false) .nullOutput
  | nullKernel {request : Request} {handle : String} : request.handle? = some handle →
    session.kernels.lookup handle = none → Cause session request .nullKernel
  /-- The kernel behind the handle refused its buffers. -/
  | kernelRefused {handle : String} {a b c : Option Buffer} {bound : Bound} {x y z : Buffer}
      {e : MatmulError} : session.kernels.lookup handle = some bound →
    (bound.kernel.multiplyInto bound.shape x y z).answer.result = .error (.refused e) →
    Cause session (.invoke handle a b c) (.refused e)
  /-- The kernel behind the handle stopped. -/
  | kernelHalted {handle : String} {a b c : Option Buffer} {bound : Bound} {x y z : Buffer}
      {f : Fault} : session.kernels.lookup handle = some bound →
    (bound.kernel.multiplyInto bound.shape x y z).answer.result = .error (.halted f) →
    Cause session (.invoke handle a b c) .halted
  | wideDimension {handle : String} {wanted : Bool × Bool × Bool} {stored : Int × Int × Int}
      {bound : Bound} {value : Nat} : session.kernels.lookup handle = some bound →
    value ∈ [bound.shape.m, bound.shape.n, bound.shape.k] → 0x80000000 ≤ value →
    Cause session (.dimensions handle wanted stored) (.wideDimension value)

/-- Whatever a call fails with has the property. -/
def FailsOnly (P : CallError → Prop) (call : Logged CallError α) : Prop :=
  ∀ e, call.result = .error e → P (CallError.ofFailure e)

namespace FailsOnly

variable {P : CallError → Prop}

theorem pure (x : α) : FailsOnly P (Pure.pure x) := fun _ h => by cases h

theorem bind {x : Logged CallError α} {f : α → Logged CallError β} (hx : FailsOnly P x)
    (hf : ∀ y, x.result = .ok y → FailsOnly P (f y)) : FailsOnly P (x >>= f) := by
  intro e h
  rcases Logged.bind_eq_error_iff.1 h with he | ⟨y, hy, he⟩
  · exact hx e he
  · exact hf y hy e he

theorem refusable {x : Except MatmulError α} (h : ∀ e, x = .error e → P (.refused e)) :
    FailsOnly P (refusable x) := by
  intro e he
  rw [result_refusable] at he
  cases x with
  | ok y => cases he
  | error e' => obtain rfl := Except.error.inj he; exact h e' rfl

theorem errorOf {call : Logged CallError α} (h : FailsOnly P call) {e : CallError}
    (he : Boundary.errorOf call.result = some e) : P e := by
  cases hr : call.result with
  | ok y => rw [hr] at he; cases he
  | error e' =>
    rw [hr] at he
    obtain rfl := Option.some.inj he
    exact h e' hr

end FailsOnly

/-! ## Lengths -/

theorem ofLengths_elementCount {rows cols : Nat} {e : MatmulError}
    (h : elementCount rows cols = .error e) : OfLengths e := by
  unfold elementCount at h
  split at h
  · cases h
  · obtain rfl := Except.error.inj h; exact .dimensionOverflow ..

theorem ofLengths_ofSigned {m n k : Int} {e : MatmulError} (h : Shape.ofSigned m n k = .error e) :
    OfLengths e := by
  simp only [Shape.ofSigned, Shape.ofSigned.extent] at h
  split at h
  · split at h
    · split at h
      · cases h
      · obtain rfl := Except.error.inj h; exact .negativeExtent ..
    · obtain rfl := Except.error.inj h; exact .negativeExtent ..
  · obtain rfl := Except.error.inj h; exact .negativeExtent ..

theorem ofLengths_validate {s : Shape} {aSize bSize cSize : Nat} {e : MatmulError}
    (h : s.validate aSize bSize cSize = .error e) : OfLengths e := by
  have hcheck : ∀ {buffer rows cols got}, e ∈ (Shape.operandChecks buffer rows cols got).map
      Shape.Check.error → OfLengths e := by
    intro buffer rows cols got he
    simp only [Shape.operandChecks, List.map_cons, List.map_nil, List.mem_cons, List.not_mem_nil,
      or_false] at he
    rcases he with rfl | rfl
    · exact .dimensionOverflow ..
    · exact .bufferTooShort ..
  rw [Shape.validate_eq_first] at h
  cases hr : Shape.refusal (s.checks aSize bSize cSize) with
  | none => rw [hr] at h; cases h
  | some e' =>
    rw [hr] at h
    obtain rfl := Except.error.inj h
    obtain ⟨check, hfind, rfl⟩ := Option.map_eq_some_iff.1 hr
    have hmem := List.mem_map_of_mem (f := Shape.Check.error) (List.mem_of_find?_eq_some hfind)
    simp only [Shape.checks, List.map_append, List.mem_append] at hmem
    rcases hmem with (hmem | hmem) | hmem <;> exact hcheck hmem

theorem ofLengths_multiplyChecked {s : Shape} {a b c : Buffer} {e : MatmulError}
    (h : (Reference.multiplyChecked s a b c).answer.result = .error (.refused e)) : OfLengths e := by
  by_cases hf : s.Fits a.size b.size c.size
  · rw [(Reference.multiplyChecked_of_fits hf).1] at h; cases h
  · obtain ⟨e', -, hv⟩ := Shape.exists_refusal hf
    rw [Reference.multiplyChecked_of_refused hv] at h
    cases h
    exact ofLengths_validate hv

theorem requiredLengths_eq_ok {m n k : Int} {s : Shape} {aLen bLen cLen : Nat}
    (h : (requiredLengths m n k).result = .ok (s, aLen, bLen, cLen)) :
    0 ≤ m ∧ 0 ≤ n ∧ 0 ≤ k ∧ s = ⟨m.toNat, n.toNat, k.toNat⟩ ∧ aLen = m.toNat * k.toNat ∧
      bLen = k.toNat * n.toNat ∧ cLen = m.toNat * n.toNat := by
  simp only [requiredLengths, Logged.bind_eq_ok_iff, result_refusable, Logged.mapError_eq_ok_iff] at h
  obtain ⟨s', hs, a', ha, b', hb, c', hc, hr⟩ := h
  obtain ⟨hm, hn, hk, rfl⟩ := ofSigned_eq_ok hs
  cases hr
  exact ⟨hm, hn, hk, rfl, (elementCount_eq_ok_iff.1 ha).2.symm,
    (elementCount_eq_ok_iff.1 hb).2.symm, (elementCount_eq_ok_iff.1 hc).2.symm⟩

theorem declaredLengths_eq_ok {m n k : Int} {aLen bLen cLen : Nat} {s : Shape} {x y z : Nat}
    (h : (declaredLengths m n k aLen bLen cLen).result = .ok (s, x, y, z)) :
    x = aLen ∧ y = bLen ∧ z = cLen := by
  simp only [declaredLengths, Logged.bind_eq_ok_iff] at h
  obtain ⟨s', -, -, -, hr⟩ := h
  cases hr
  exact ⟨rfl, rfl, rfl⟩

theorem failsOnly_requiredLengths {P : CallError → Prop} {m n k : Int}
    (h : ∀ e, OfLengths e → P (.refused e)) : FailsOnly P (requiredLengths m n k) :=
  .bind (.refusable fun _ he => h _ (ofLengths_ofSigned he)) fun _ _ =>
    .bind (.refusable fun _ he => h _ (ofLengths_elementCount he)) fun _ _ =>
    .bind (.refusable fun _ he => h _ (ofLengths_elementCount he)) fun _ _ =>
    .bind (.refusable fun _ he => h _ (ofLengths_elementCount he)) fun _ _ => .pure _

theorem failsOnly_declaredLengths {P : CallError → Prop} {m n k : Int} {aLen bLen cLen : Nat}
    (h : ∀ e, OfLengths e → P (.refused e)) : FailsOnly P (declaredLengths m n k aLen bLen cLen) :=
  .bind (.refusable fun _ he => h _ (ofLengths_ofSigned he)) fun _ _ =>
    .bind (.refusable fun _ he => h _ (ofLengths_validate he)) fun _ _ => .pure _

/-! ## Dimensions -/

theorem failsOnly_narrow {P : CallError → Prop} {value : Nat}
    (h : 0x80000000 ≤ value → P (.wideDimension value)) : FailsOnly P (Session.narrow value) := by
  intro e he
  unfold Session.narrow at he
  split at he
  · cases he
  · cases he
    exact h (by omega)

/-! ## Products -/

section Products

variable {P : CallError → Prop} {kernel : Kernel} {s : Shape} {a b c : Option Buffer}
  {aLen bLen cLen : Nat}

theorem failsOnly_borrow {pointer : Pointer} {buffer : Option Buffer} {length : Nat}
    (hnull : P (.nullBuffer pointer)) (hshort : ¬ Holds buffer length → P .halted) :
    FailsOnly P (borrow pointer buffer length) := by
  intro e h
  unfold borrow at h
  split at h
  · cases h
  · cases buffer with
    | none => cases h; exact hnull
    | some data =>
      have hslice : FailsOnly P (.ofFault (data.slice 0 length) : Logged CallError Buffer) := by
        intro f hf
        simp only [Logged.result_ofFault, Buffer.slice] at hf
        split at hf
        · cases hf
        · cases hf
          refine hshort fun hholds => ?_
          have hsize := hholds data rfl
          omega
      exact hslice e h

theorem failsOnly_multiplyBorrowed (hnull : ∀ pointer, P (.nullBuffer pointer))
    (hshort : ¬ (Holds a aLen ∧ Holds b bLen ∧ Holds c cLen) → P .halted)
    (hrefused : ∀ x y z e, (kernel.multiplyInto s x y z).answer.result = .error (.refused e) →
      P (.refused e))
    (hhalted : ∀ x y z f, (kernel.multiplyInto s x y z).answer.result = .error (.halted f) →
      P .halted) :
    FailsOnly P (multiplyBorrowed kernel s aLen bLen cLen a b c).1 := by
  have hborrowed : FailsOnly P (do
      return (← borrow .a a aLen, ← borrow .b b bLen, ← borrow .c c cLen)) :=
    .bind (failsOnly_borrow (hnull _) fun h => hshort fun hall => h hall.1) fun _ _ =>
      .bind (failsOnly_borrow (hnull _) fun h => hshort fun hall => h hall.2.1) fun _ _ =>
        .bind (failsOnly_borrow (hnull _) fun h => hshort fun hall => h hall.2.2) fun _ _ => .pure _
  intro e h
  unfold multiplyBorrowed at h
  dsimp only at h
  split at h
  · rename_i e' he
    cases h
    exact hborrowed e he
  · rename_i x y z _
    cases hr : (kernel.multiplyInto s x y z).answer.result with
    | ok u => simp [Logged.mapError, hr] at h
    | error e' =>
      simp only [Logged.mapError, hr, Logged.mapError_error] at h
      cases h
      cases e' with
      | refused error => exact hrefused x y z error hr
      | halted f => exact hhalted x y z f hr

theorem failsOnly_multiplyWith {lengths : Logged CallError (Shape × Nat × Nat × Nat)}
    (hlengths : FailsOnly P lengths)
    (hproduct : ∀ s aLen bLen cLen, lengths.result = .ok (s, aLen, bLen, cLen) →
      FailsOnly P (multiplyBorrowed kernel s aLen bLen cLen a b c).1) :
    FailsOnly P (multiplyWith kernel lengths a b c).1 := by
  unfold multiplyWith
  split
  · rename_i e he
    intro e' h
    cases h
    exact hlengths e he
  · rename_i s aLen bLen cLen hr
    exact hproduct s aLen bLen cLen hr

/-- A product of the reference fails for its lengths, a null buffer or a buffer that is too short. -/
theorem failsOnly_reference (hlengths : ∀ e, OfLengths e → P (.refused e))
    (hnull : ∀ pointer, P (.nullBuffer pointer))
    (hshort : ¬ (Holds a aLen ∧ Holds b bLen ∧ Holds c cLen) → P .halted) :
    FailsOnly P (multiplyBorrowed .reference s aLen bLen cLen a b c).1 :=
  failsOnly_multiplyBorrowed hnull hshort
    (fun _ _ _ e h => hlengths e (ofLengths_multiplyChecked h))
    (fun x y z f h => absurd h (Reference.multiplyChecked_answers s x y z f))

end Products

/-! ## All calls -/

/-- Whatever a call fails with has a cause. -/
theorem Session.cause_of_failure {machineThreads : Nat} {session : Session} {request : Request}
    {e : CallError} (h : session.failure? machineThreads request = some e) :
    Cause session request e := by
  cases request with
  | multiply m n k a b c =>
    refine FailsOnly.errorOf (failsOnly_multiplyWith (failsOnly_requiredLengths fun _ => .lengths)
      fun s aLen bLen cLen hok => ?_) h
    obtain ⟨hm, hn, hk, -, rfl, rfl, rfl⟩ := requiredLengths_eq_ok hok
    exact failsOnly_reference (fun _ => .lengths) .nullBuffer fun hshort =>
      .shortBuffer fun hhold => hshort (hhold hm hn hk)
  | multiplyChecked m n k aLen bLen cLen a b c =>
    refine FailsOnly.errorOf (failsOnly_multiplyWith (failsOnly_declaredLengths fun _ => .lengths)
      fun s x y z hok => ?_) h
    obtain ⟨rfl, rfl, rfl⟩ := declaredLengths_eq_ok hok
    exact failsOnly_reference (fun _ => .lengths) .nullBuffer fun hshort =>
      .shortBuffer fun hhold => hshort hhold
  | create handle m n k variant output =>
    cases output with
    | false => cases h; exact .nullOutput
    | true =>
      obtain ⟨e', hlengths, hcall⟩ | ⟨bound, -, hcall, -⟩ :=
        newKernel_cases m n k machineThreads variant
      · -- A handle is refused for what a product is refused for.
        simp only [failure?, hcall] at h
        obtain rfl := Option.some.inj h
        exact failsOnly_requiredLengths (fun _ => .lengths) e' hlengths
      · simp only [failure?, hcall] at h
        cases h
  | invoke handle a b c =>
    cases hl : session.kernels.lookup handle with
    | none =>
      simp only [failure?, Session.invoke, hl] at h
      cases h
      exact .nullKernel rfl hl
    | some bound =>
      simp only [failure?, Session.invoke, hl] at h
      refine FailsOnly.errorOf (failsOnly_multiplyBorrowed .nullBuffer (fun hshort => ?_)
        (fun _ _ _ _ => .kernelRefused hl) (fun _ _ _ _ => .kernelHalted hl)) h
      refine .shortBuffer fun hhold => hshort (hhold bound hl)
  | dimensions handle wanted stored =>
    cases hl : session.kernels.lookup handle with
    | none =>
      simp only [failure?, shapeOf, hl] at h
      cases h
      exact .nullKernel rfl hl
    | some bound =>
      simp only [failure?, shapeOf, hl] at h
      have hnarrow : ∀ value ∈ [bound.shape.m, bound.shape.n, bound.shape.k],
          FailsOnly (Cause session (.dimensions handle wanted stored)) (narrow value) :=
        fun value hvalue => failsOnly_narrow (.wideDimension hl hvalue)
      exact FailsOnly.errorOf (.bind (hnarrow _ (by simp)) fun _ _ =>
        .bind (hnarrow _ (by simp)) fun _ _ => .bind (hnarrow _ (by simp)) fun _ _ => .pure _) h
  | destroy handle => cases h
  | lastError => cases h

end DenseMatmul.Boundary
