import DenseMatmul.Proofs.Routes
/-!
# Calls of a bound kernel

A bound kernel keeps the lengths of its shape and hands every call on to the kernel it wraps. Where
that kernel is faithful to the reference, `invoke_of_enough` and `invoke_of_short` say what one call
answers and leaves, by the lengths kept. A call writes the whole product or nothing at all, and the
product of a call covers that of any call before it (`product_product`). So of a run of calls on one
output buffer only the last success shows: `after_eq`.
-/

namespace DenseMatmul

/-! ## Binding -/

theorem Shape.lengths_eq_ok_iff {s : Shape} {r : Nat × Nat × Nat} :
    s.lengths = .ok r ↔ s.m * s.k < wordLimit ∧ s.k * s.n < wordLimit ∧ s.m * s.n < wordLimit ∧
      r = (s.m * s.k, s.k * s.n, s.m * s.n) := by
  simp only [lengths, aLen, bLen, cLen, elementCount]
  by_cases ha : s.m * s.k < wordLimit
  · by_cases hb : s.k * s.n < wordLimit
    · by_cases hc : s.m * s.n < wordLimit
      · simp [ha, hb, hc, bind, Except.bind, pure, Except.pure, eq_comm]
      · simp [ha, hb, hc, bind, Except.bind]
    · simp [ha, hb, bind, Except.bind]
  · simp [ha, bind, Except.bind]

namespace Bound

theorem ofKernel_eq_ok {s : Shape} {kernel : Kernel} {bound : Bound}
    (h : (ofKernel s kernel).result = .ok bound) : bound.shape = s ∧ bound.kernel = kernel := by
  obtain ⟨e, -, he⟩ | ⟨made, hmade, hs, hk⟩ := Boundary.ofKernel_cases s kernel
  · rw [he] at h
    cases h
  · obtain rfl : made = bound := Except.ok.inj (hmade.symm.trans h)
    exact ⟨hs, hk⟩

theorem exists_ofKernel_iff {s : Shape} {kernel : Kernel} :
    (∃ bound, (ofKernel s kernel).result = .ok bound) ↔
      s.m * s.k < wordLimit ∧ s.k * s.n < wordLimit ∧ s.m * s.n < wordLimit := by
  constructor
  · rintro ⟨bound, h⟩
    obtain ⟨rfl, -⟩ := ofKernel_eq_ok h
    obtain ⟨ha, hb, hc, -⟩ := Shape.lengths_eq_ok_iff.1 (Boundary.lengths_bound bound)
    exact ⟨ha, hb, hc⟩
  · rintro ⟨ha, hb, hc⟩
    obtain ⟨e, hl, -⟩ | ⟨bound, hbound, -, -⟩ := Boundary.ofKernel_cases s kernel
    · rw [Shape.lengths_eq_ok_iff.2 ⟨ha, hb, hc, rfl⟩] at hl
      cases hl
    · exact ⟨bound, hbound⟩

/-! ## One call -/

/-- The buffers that are shorter than the lengths kept, in the order A, B, C: which one, the length
needed, and the length there is. -/
def short (bound : Bound) (a b c : Buffer) : List (Operand × Nat × Nat) :=
  [(.a, bound.aLen, a.size), (.b, bound.bLen, b.size), (.c, bound.cLen, c.size)].filter
    fun (_, required, got) => got < required

/-- The answer of a call in which no buffer but these is short. -/
def answerTo : List (Operand × Nat × Nat) → Except (Failure MatmulError) Unit
  | [] => .ok ()
  | (buffer, required, got) :: _ => .error (.refused (.bufferTooShort buffer required got))

variable {bound : Bound} {a b c : Buffer}

theorem lengths_eq (bound : Bound) : bound.aLen = bound.shape.m * bound.shape.k ∧
    bound.bLen = bound.shape.k * bound.shape.n ∧ bound.cLen = bound.shape.m * bound.shape.n := by
  obtain ⟨-, -, -, h⟩ := Shape.lengths_eq_ok_iff.1 (Boundary.lengths_bound bound)
  simpa using h

/-- The lengths are words, so only the second check of each buffer can fail. -/
theorem validate_eq (bound : Bound) (a b c : Buffer) :
    (bound.shape.validate a.size b.size c.size).mapError Failure.refused =
      answerTo (bound.short a b c) := by
  obtain ⟨ha, hb, hc, -⟩ := Shape.lengths_eq_ok_iff.1 (Boundary.lengths_bound bound)
  obtain ⟨hal, hbl, hcl⟩ := bound.lengths_eq
  rw [Shape.validate_eq_first]
  simp only [Shape.checks, Shape.operandChecks, Shape.refusal, short, hal, hbl, hcl]
  by_cases hsa : a.size < bound.shape.m * bound.shape.k
  · simp [hsa, Nat.not_le.2 ha, answerTo]
  · by_cases hsb : b.size < bound.shape.k * bound.shape.n
    · simp [hsa, hsb, Nat.not_le.2 ha, Nat.not_le.2 hb, answerTo]
    · by_cases hsc : c.size < bound.shape.m * bound.shape.n
      · simp [hsa, hsb, hsc, Nat.not_le.2 ha, Nat.not_le.2 hb, Nat.not_le.2 hc, answerTo]
      · simp [hsa, hsb, hsc, Nat.not_le.2 ha, Nat.not_le.2 hb, Nat.not_le.2 hc, answerTo]

theorem fits_of_enough (h : bound.short a b c = []) : bound.shape.Fits a.size b.size c.size := by
  rw [← Shape.validate_eq_ok_iff_fits, ← Logged.mapError_eq_ok_iff, validate_eq, h, answerTo]

theorem invoke_of_enough (hf : bound.kernel.Faithful) (h : bound.short a b c = []) :
    (bound.invoke a b c).answer.result = .ok () ∧
      (bound.invoke a b c).c = Reference.product bound.shape a b c := by
  obtain ⟨hr, hc⟩ := Reference.multiplyChecked_of_fits (fits_of_enough h)
  have hagrees := hf bound.shape a b c
  exact ⟨hagrees.result.trans hr, hagrees.c.trans hc⟩

theorem invoke_of_short (hf : bound.kernel.Faithful) (h : bound.short a b c ≠ []) :
    (bound.invoke a b c).answer.result = answerTo (bound.short a b c) ∧
      (bound.invoke a b c).c = c := by
  have hagrees := hf bound.shape a b c
  have hv := bound.validate_eq a b c
  cases he : bound.shape.validate a.size b.size c.size with
  | ok _ =>
    obtain ⟨first, rest, hs⟩ := List.exists_cons_of_ne_nil h
    rw [he, hs] at hv
    cases hv
  | error e =>
    rw [Reference.multiplyChecked_of_refused he] at hagrees
    rw [he] at hv
    exact ⟨hagrees.result.trans hv, hagrees.c⟩

theorem short_eq_nil_iff : bound.short a b c = [] ↔
    bound.aLen ≤ a.size ∧ bound.bLen ≤ b.size ∧ bound.cLen ≤ c.size := by
  simp [short, List.filter_eq_nil_iff]

/-! ## Runs of calls -/

/-- The calls of a run on one output buffer, each with A and B of its own. -/
def calls (bound : Bound) : Buffer → List (Buffer × Buffer) → List Call
  | _, [] => []
  | c, (a, b) :: rest => bound.invoke a b c :: bound.calls (bound.invoke a b c).c rest

/-- The output buffer after a run. -/
def after (bound : Bound) (c : Buffer) (inputs : List (Buffer × Buffer)) : Buffer :=
  ((bound.calls c inputs).getLast?.map Call.c).getD c

/-- The inputs of the last call of a run that succeeded. -/
def lastAnswered (bound : Bound) (c : Buffer) (inputs : List (Buffer × Buffer)) :
    Option (Buffer × Buffer) :=
  (((inputs.zip (bound.calls c inputs)).filter fun (_, call) => call.answer.result.isOk).getLast?).map
    Prod.fst

theorem after_cons (rest : List (Buffer × Buffer)) :
    bound.after c ((a, b) :: rest) = bound.after (bound.invoke a b c).c rest := by
  simp only [after, calls, List.getLast?_cons]
  cases (bound.calls (bound.invoke a b c).c rest).getLast? <;> rfl

/-- Each call of a run finds what the calls before it left. -/
theorem getElem?_calls {inputs : List (Buffer × Buffer)} {i : Nat}
    (h : inputs[i]? = some (a, b)) :
    (bound.calls c inputs)[i]? = some (bound.invoke a b (bound.after c (inputs.take i))) := by
  induction inputs generalizing c i with
  | nil => simp at h
  | cons input rest ih =>
    obtain ⟨a', b'⟩ := input
    cases i with
    | zero =>
      obtain ⟨rfl, rfl⟩ : a' = a ∧ b' = b := by simpa using h
      rfl
    | succ i =>
      rw [calls, List.getElem?_cons_succ, List.take_succ_cons, after_cons]
      exact ih (by simpa using h)

theorem lastAnswered_cons (rest : List (Buffer × Buffer)) :
    bound.lastAnswered c ((a, b) :: rest) = (bound.lastAnswered (bound.invoke a b c).c rest).or
      (if (bound.invoke a b c).answer.result.isOk then some (a, b) else none) := by
  simp only [lastAnswered, calls, List.zip_cons_cons, List.filter_cons]
  split
  · rw [List.getLast?_cons]
    cases (List.filter _ _).getLast? <;> rfl
  · rw [Option.or_none]

/-- The product of one call covers that of another. -/
theorem product_product {s : Shape} {a b a' b' out : Buffer} :
    Reference.product s a b (Reference.product s a' b' out) = Reference.product s a b out := by
  refine Array.ext_getElem? fun p => ?_
  simp only [Reference.product, Step.fill, Array.getElem?_mapIdx]
  cases out[p]? with
  | none => rfl
  | some x => by_cases hp : p < s.m * s.n <;> simp [hp]

/-- A run leaves the product of its last success, on what was there before the run. -/
theorem after_eq (hf : bound.kernel.Faithful) (c : Buffer) (inputs : List (Buffer × Buffer)) :
    bound.after c inputs = match bound.lastAnswered c inputs with
      | none => c
      | some (a, b) => Reference.product bound.shape a b c := by
  induction inputs generalizing c with
  | nil => rfl
  | cons input rest ih =>
    obtain ⟨a, b⟩ := input
    rw [after_cons, lastAnswered_cons, ih]
    by_cases h : bound.short a b c = []
    · obtain ⟨hr, hc⟩ := invoke_of_enough hf h
      rw [hr, hc]
      cases bound.lastAnswered (Reference.product bound.shape a b c) rest with
      | none => rfl
      | some last => exact product_product
    · obtain ⟨hr, hc⟩ := invoke_of_short hf h
      obtain ⟨first, others, hs⟩ := List.exists_cons_of_ne_nil h
      rw [hr, hc, hs]
      cases bound.lastAnswered c rest with
      | none => rfl
      | some last => rfl

/-- A call that succeeded had an output buffer with room for the product. No call changes its size. -/
theorem enough_of_lastAnswered (hf : bound.kernel.Faithful) {c : Buffer}
    {inputs : List (Buffer × Buffer)} {last : Buffer × Buffer}
    (h : bound.lastAnswered c inputs = some last) : bound.shape.m * bound.shape.n ≤ c.size := by
  induction inputs generalizing c with
  | nil => cases h
  | cons input rest ih =>
    obtain ⟨a, b⟩ := input
    by_cases hs : bound.short a b c = []
    · exact (fits_of_enough hs).c_le
    · obtain ⟨hr, hc⟩ := invoke_of_short hf hs
      obtain ⟨first, others, hcons⟩ := List.exists_cons_of_ne_nil hs
      rw [lastAnswered_cons, hr, hc, hcons] at h
      exact ih (by simpa [answerTo, Except.isOk, Except.toBool] using h)

end Bound

/-- What a call of a run is for the lengths kept, where `held` is what the calls before it left. -/
structure Bound.Exact (bound : Bound) (a b held : Buffer) (call : Call) : Prop where
  answers : ∀ f, call.answer.result ≠ .error (.halted f)
  lengths_are_words : ∀ rows cols,
    call.answer.result ≠ .error (.refused (.dimensionOverflow rows cols))
  succeeds_iff : call.answer.result = .ok () ↔
    bound.aLen ≤ a.size ∧ bound.bLen ≤ b.size ∧ bound.cLen ≤ held.size
  names_first : ∀ {buffer required got rest}, bound.short a b held = (buffer, required, got) :: rest →
    call.answer.result = .error (.refused (.bufferTooShort buffer required got))
  unchanged : call.answer.result ≠ .ok () → call.c = held

theorem Bound.exact_invoke {bound : Bound} (hf : bound.kernel.Faithful) (a b c : Buffer) :
    bound.Exact a b c (bound.invoke a b c) := by
  have hshort := @short_eq_nil_iff bound a b c
  by_cases h : bound.short a b c = []
  · have hr := (invoke_of_enough hf h).1
    exact ⟨by simp [hr], by simp [hr], by simp [hr, ← hshort, h], by simp [h], by simp [hr]⟩
  · obtain ⟨hr, hc⟩ := invoke_of_short hf h
    obtain ⟨⟨buffer, required, got⟩, rest, hs⟩ := List.exists_cons_of_ne_nil h
    rw [hs, answerTo] at hr
    refine ⟨by simp [hr], by simp [hr], by simp [hr, ← hshort, h], ?_, fun _ => hc⟩
    intro buffer' required' got' rest' hs'
    obtain ⟨⟨rfl, rfl, rfl⟩, -⟩ : (buffer = buffer' ∧ required = required' ∧ got = got') ∧ _ := by
      simpa [hs] using hs'
    exact hr

/-- Binding succeeds exactly where all three lengths are words. A bound kernel that wraps the
reference or a banded one then answers every call of every run on one output buffer. A call succeeds
exactly if no buffer is shorter than the lengths kept, and else names the first that is and leaves the
output as it was. After the run the output holds the product of the last call that succeeded, or what
it held before if none did; past the product it is as it was before the run. -/
theorem bound_run_exact (s : Shape) (kernel : Kernel) :
    ((∃ bound, (Bound.ofKernel s kernel).result = .ok bound) ↔
        s.m * s.k < wordLimit ∧ s.k * s.n < wordLimit ∧ s.m * s.n < wordLimit) ∧
      ∀ bound, (Bound.ofKernel s kernel).result = .ok bound → kernel.Provided →
        (bound.aLen = s.m * s.k ∧ bound.bLen = s.k * s.n ∧ bound.cLen = s.m * s.n) ∧
        ∀ (old : Buffer) (inputs : List (Buffer × Buffer)),
          (∀ (i : Nat) (a b : Buffer), inputs[i]? = some (a, b) →
            ∃ call, (bound.calls old inputs)[i]? = some call ∧
              bound.Exact a b (bound.after old (inputs.take i)) call) ∧
          (bound.after old inputs).size = old.size ∧
          (∀ p, s.m * s.n ≤ p → (bound.after old inputs)[p]? = old[p]?) ∧
          match bound.lastAnswered old inputs with
          | none => bound.after old inputs = old
          | some (a, b) => ∀ i < s.m, ∀ j < s.n,
              (bound.after old inputs)[i * s.n + j]? = some (Reference.dot s a b i j) := by
  refine ⟨Bound.exists_ofKernel_iff, fun bound hbound hk => ?_⟩
  obtain ⟨rfl, rfl⟩ := Bound.ofKernel_eq_ok hbound
  have hf : bound.kernel.Faithful := hk.faithful
  refine ⟨bound.lengths_eq, fun old inputs => ⟨fun i a b hi => ?_, ?_⟩⟩
  · exact ⟨_, Bound.getElem?_calls hi, Bound.exact_invoke hf a b _⟩
  · rw [Bound.after_eq hf]
    cases hlast : bound.lastAnswered old inputs with
    | none => exact ⟨rfl, fun _ _ => rfl, rfl⟩
    | some last =>
      have henough := Bound.enough_of_lastAnswered hf hlast
      refine ⟨Reference.size_product .., fun p => Reference.product_past, fun i hi j hj => ?_⟩
      exact Reference.product_place hi hj henough

/-- Two bands, one call that succeeds and one whose A is too short, on a buffer with room to spare. -/
theorem bound_run_exact_two_bands :
    let bound : Bound :=
      { shape := ⟨2, 1, 1⟩, kernel := .rowParallel ((Banding.ofThreads 2).withSplit 0 0)
        aLen := 2, bLen := 1, cLen := 2, aLen_eq := rfl, bLen_eq := rfl, cLen_eq := rfl }
    let old : Buffer := #[.nan, .nan, .one]
    let inputs : List (Buffer × Buffer) := [(#[.one, .nan], #[.one]), (#[.zero], #[.one])]
    (Bound.ofKernel ⟨2, 1, 1⟩ bound.kernel).result = .ok bound ∧ bound.kernel.Provided ∧
      bound.lastAnswered old inputs = some (#[.one, .nan], #[.one]) ∧
      (bound.after old inputs)[0]? = some .one ∧ (bound.after old inputs)[2]? = some .one := by
  intro bound old inputs
  have hk : bound.kernel.Provided := .rowParallel _
  obtain ⟨-, hruns⟩ := bound_run_exact ⟨2, 1, 1⟩ bound.kernel
  obtain ⟨-, hrun⟩ := hruns bound rfl hk
  obtain ⟨-, -, hpast, hdots⟩ := hrun old inputs
  have hlast : bound.lastAnswered old inputs = some (#[.one, .nan], #[.one]) := by decide +kernel
  refine ⟨rfl, hk, hlast, ?_, hpast 2 (by decide)⟩
  rw [hlast] at hdots
  have hsum : Reference.dot ⟨2, 1, 1⟩ #[.one, .nan] #[.one] 0 0 = .one := by decide
  simpa [hsum] using hdots 0 (by decide) 0 (by decide)

end DenseMatmul
