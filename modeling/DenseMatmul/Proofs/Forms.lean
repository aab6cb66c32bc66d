import DenseMatmul.Proofs.Reference
/-!
# The forms of the reference

The reference can be called in four forms: unchecked, checked, raw, and into a buffer of its own.
Each looks after the lengths in its own way, and all of them come down to one question, whether the
buffers fit. Where they do, `multiply_eq` says what is left, whichever form is called. Where they do
not, no form stores anything: the unchecked one faults at its first step (`steps_of_not_fits`).
-/

namespace DenseMatmul

namespace Reference

variable {s : Shape}

/-! ## The unchecked form -/

theorem demand_eq_ok_iff {operand : Operand} {rows cols got : Nat} :
    demand operand rows cols got = .ok () ↔ rows * cols < wordLimit ∧ rows * cols ≤ got := by
  unfold demand
  by_cases hw : wordLimit ≤ rows * cols
  · simp [hw, Nat.not_lt.2 hw]
  · by_cases hg : got < rows * cols
    · simp [hw, hg]
    · simp [hw, hg, Nat.not_le.1 hw, Nat.not_lt.1 hg]

theorem demandAll_eq_ok_iff_fits {aSize bSize cSize : Nat} :
    demandAll s aSize bSize cSize = .ok () ↔ s.Fits aSize bSize cSize := by
  refine ⟨fun h => ?_, demandAll_eq⟩
  unfold demandAll at h
  cases ha : demand .a s.m s.k aSize with
  | error f => rw [ha] at h; cases h
  | ok _ =>
    cases hb : demand .b s.k s.n bSize with
    | error f => rw [ha, hb] at h; cases h
    | ok _ =>
      rw [ha, hb] at h
      obtain ⟨haw, hal⟩ := demand_eq_ok_iff.1 ha
      obtain ⟨hbw, hbl⟩ := demand_eq_ok_iff.1 hb
      obtain ⟨hcw, hcl⟩ := demand_eq_ok_iff.1 h
      exact ⟨haw, hal, hbw, hbl, hcw, hcl⟩

/-- Buffers that do not fit are found out before anything is stored. -/
theorem steps_of_not_fits {a b : Buffer} {cSize : Nat} (h : ¬ s.Fits a.size b.size cSize) :
    ∃ f, steps s a b cSize = [.error f] := by
  cases hd : demandAll s a.size b.size cSize with
  | ok _ => exact absurd (demandAll_eq_ok_iff_fits.1 hd) h
  | error f => exact ⟨f, by rw [steps, hd]⟩

theorem multiply_of_not_fits {a b c : Buffer} (h : ¬ s.Fits a.size b.size c.size) :
    ∃ f, multiply s a b c = ⟨.error f, c⟩ := by
  obtain ⟨f, hf⟩ := steps_of_not_fits h
  exact ⟨f, by rw [multiply, hf, Step.run]⟩

theorem fits_of_multiplyChecked {a b c : Buffer}
    (h : (multiplyChecked s a b c).answer.result = .ok ()) : s.Fits a.size b.size c.size := by
  apply Classical.byContradiction
  intro hf
  obtain ⟨e, -, hv⟩ := Shape.exists_refusal hf
  rw [multiplyChecked_of_refused hv] at h
  cases h

/-! ## The raw form -/

/-- An operand of exactly this length, which may be absent if that is zero. -/
def Lent (operand : Option Buffer) (length : Nat) : Prop :=
  match operand with
  | some data => data.size = length
  | none => length = 0

theorem Lent.size {operand : Option Buffer} {length : Nat} (h : Lent operand length) :
    (operand.getD #[]).size = length := by
  cases operand with
  | none => exact h.symm
  | some data => exact h

theorem borrow_eq {operand : Option Buffer} {length : Nat} (h : Lent operand length) :
    borrow operand length = .ok (operand.getD #[]) := by
  unfold borrow
  split
  · -- Nothing is needed, so what is there has no elements.
    have hsize := h.size
    have hempty : (operand.getD #[]).size = 0 := by omega
    rw [Array.eq_empty_of_size_eq_zero hempty]
  · cases operand with
    | none => exact absurd h (by assumption)
    | some data =>
      obtain rfl : data.size = length := h
      exact Buffer.slice_eq_ok_iff.2 ⟨Nat.zero_le _, Nat.le_refl _, by simp⟩

theorem fits_of_lent {a b : Option Buffer} {data : Buffer} (ha : s.m * s.k < wordLimit)
    (hb : s.k * s.n < wordLimit) (hc : s.m * s.n < wordLimit) (hla : Lent a (s.m * s.k))
    (hlb : Lent b (s.k * s.n)) (hlc : Lent (some data) (s.m * s.n)) :
    s.Fits (a.getD #[]).size (b.getD #[]).size data.size :=
  ⟨ha, Nat.le_of_eq hla.size.symm, hb, Nat.le_of_eq hlb.size.symm, hc, Nat.le_of_eq hlc.size.symm⟩

/-- Where the lengths are words and the operands are lent at those lengths, the raw form answers, and
leaves the product in the output if there is one. -/
theorem multiplyRaw_eq {a b c : Option Buffer} (ha : s.m * s.k < wordLimit)
    (hb : s.k * s.n < wordLimit) (hc : s.m * s.n < wordLimit) (hla : Lent a (s.m * s.k))
    (hlb : Lent b (s.k * s.n)) (hlc : Lent c (s.m * s.n)) :
    multiplyRaw s a b c = (.ok (), c.map (product s (a.getD #[]) (b.getD #[]))) := by
  unfold multiplyRaw
  simp only [wordProduct_of_lt ha, wordProduct_of_lt hb, wordProduct_of_lt hc, bind, Except.bind,
    borrow_eq hla, borrow_eq hlb, pure, Except.pure]
  cases c with
  | none =>
    have hzero : s.m * s.n = 0 := hlc
    rw [hzero]
    rfl
  | some data =>
    have hsize : data.size = s.m * s.n := hlc
    have hrun := multiply_eq (fits_of_lent ha hb hc hla hlb hlc)
    rw [multiply, hsize] at hrun
    cases hlength : s.m * s.n with
    | zero =>
      rw [Option.map_some, product, hlength, Step.fill_zero]
      rfl
    | succ count =>
      rw [hlength] at hrun
      simp only [hrun, Option.map_some]

/-! ## The form with a buffer of its own -/

/-- The product in a new buffer is what is left of any buffer of its length. -/
theorem product_of_size {a b c out : Buffer} (hc : c.size = s.m * s.n) (hout : out.size = s.m * s.n) :
    product s a b c = product s a b out := by
  refine Array.ext_getElem? fun p => ?_
  rcases Nat.lt_or_ge p (s.m * s.n) with hp | hp
  · rw [product, product, Step.fill_of_lt hp (by omega), Step.fill_of_lt hp (by omega)]
  · rw [Array.getElem?_eq_none (by simpa using by omega),
      Array.getElem?_eq_none (by simpa using by omega)]

theorem kernel_multiply_eq_ok_iff {a b out : Buffer} :
    (Kernel.reference.multiply s a b).result = .ok out ↔
      s.Fits a.size b.size (s.m * s.n) ∧ out = product s a b (.replicate (s.m * s.n) .zero) := by
  simp only [Kernel.multiply, Logged.bind_eq_ok_iff, Logged.result_ofExcept, Logged.result_pure,
    Logged.mapError_eq_ok_iff, Shape.cLen, elementCount_eq_ok_iff]
  constructor
  · rintro ⟨_, ⟨-, rfl⟩, _, hanswer, hout⟩
    have hfits := fits_of_multiplyChecked hanswer
    rw [Array.size_replicate] at hfits
    refine ⟨hfits, (Except.ok.inj hout).symm.trans ?_⟩
    exact (multiplyChecked_of_fits (by rwa [Array.size_replicate])).2
  · rintro ⟨hfits, rfl⟩
    obtain ⟨hr, hc⟩ := multiplyChecked_of_fits (a := a) (b := b)
      (c := .replicate (s.m * s.n) .zero) (by rwa [Array.size_replicate])
    exact ⟨_, ⟨hfits.c_word, rfl⟩, (), hr, congrArg _ hc⟩

/-- The reference counts the elements of C before it makes them. -/
theorem kernel_multiply_of_overflow {a b : Buffer} (h : wordLimit ≤ s.m * s.n) :
    (Kernel.reference.multiply s a b).result = .error (.refused (.dimensionOverflow s.m s.n)) := by
  simp only [Kernel.multiply, Logged.result_bind, Logged.result_ofExcept, Shape.cLen, elementCount,
    if_neg (Nat.not_lt.2 h)]
  rfl

/-- The reference refuses a product that does not fit. -/
theorem kernel_multiply_of_not_fits {a b : Buffer} (h : ¬ s.Fits a.size b.size (s.m * s.n)) :
    ∃ e, (Kernel.reference.multiply s a b).result = .error (.refused e) := by
  by_cases hword : s.m * s.n < wordLimit
  · have hlength : s.cLen = .ok (s.m * s.n) := elementCount_eq_ok_iff.2 ⟨hword, rfl⟩
    rw [← Array.size_replicate (n := s.m * s.n) (v := Single.zero)] at h
    obtain ⟨e, -, hv⟩ := Shape.exists_refusal h
    refine ⟨e, ?_⟩
    simp only [Kernel.multiply, Logged.result_bind, Logged.result_ofExcept, hlength]
    change (multiplyChecked s a b (.replicate (s.m * s.n) .zero)).answer.result >>= _ = _
    rw [multiplyChecked_of_refused hv]
    rfl
  · exact ⟨_, kernel_multiply_of_overflow (Nat.not_lt.1 hword)⟩

end Reference

/-- The forms of the reference agree. The unchecked form faults exactly where the checked form
refuses, before it stores anything, and else both leave the same buffer. Where the lengths are words,
the raw form answers for operands of exactly those lengths, absent ones included, and leaves what the
checked form leaves. The form with a buffer of its own answers exactly where the length of C is a word
and the checked form succeeds on a buffer of that length; it gives what is then left of that buffer,
whatever was in it. -/
theorem forms_agree (s : Shape) :
    (∀ a b c : Buffer,
      let run := Reference.multiply s a b c
      let call := Reference.multiplyChecked s a b c
      ((∃ f, run.result = .error f) ↔ ∃ e, call.answer.result = .error e) ∧
        (∀ f, call.answer.result ≠ .error (.halted f)) ∧
        ((∃ f, run.result = .error f) →
          (∃ f, Reference.steps s a b c.size = [.error f]) ∧ run.c = c ∧ call.c = c) ∧
        (run.result = .ok () → call.answer.result = .ok () ∧ run.c = call.c)) ∧
      (∀ a b c : Option Buffer, s.m * s.k < wordLimit → s.k * s.n < wordLimit →
        s.m * s.n < wordLimit → Reference.Lent a (s.m * s.k) → Reference.Lent b (s.k * s.n) →
        Reference.Lent c (s.m * s.n) →
        Reference.multiplyRaw s a b c =
          (.ok (), c.map fun data =>
            (Reference.multiplyChecked s (a.getD #[]) (b.getD #[]) data).c)) ∧
      ∀ a b c : Buffer, c.size = s.m * s.n →
        let call := Kernel.reference.multiplyInto s a b c
        ((∃ out, (Kernel.reference.multiply s a b).result = .ok out) ↔
            s.m * s.n < wordLimit ∧ call.answer.result = .ok ()) ∧
          ∀ out, (Kernel.reference.multiply s a b).result = .ok out → call.c = out := by
  refine ⟨fun a b c => ?_, fun a b c ha hb hc hla hlb hlc => ?_, fun a b c hsize => ?_⟩
  · by_cases hf : s.Fits a.size b.size c.size
    · have hrun := Reference.multiply_eq hf
      obtain ⟨hr, hc⟩ := Reference.multiplyChecked_of_fits hf
      simp [hrun, hr, hc]
    · obtain ⟨f, hrun⟩ := Reference.multiply_of_not_fits hf
      obtain ⟨e, -, hv⟩ := Shape.exists_refusal hf
      simp [hrun, Reference.multiplyChecked_of_refused hv, Reference.steps_of_not_fits hf]
  · rw [Reference.multiplyRaw_eq ha hb hc hla hlb hlc, Prod.mk.injEq]
    refine ⟨rfl, ?_⟩
    cases c with
    | none => rfl
    | some data =>
      have hfits := Reference.fits_of_lent ha hb hc hla hlb hlc
      exact congrArg some (Reference.multiplyChecked_of_fits hfits).2.symm
  · have hcall : (Kernel.reference.multiplyInto s a b c).answer.result = .ok () ↔
        s.Fits a.size b.size c.size :=
      ⟨Reference.fits_of_multiplyChecked, fun hf => (Reference.multiplyChecked_of_fits hf).1⟩
    refine ⟨?_, fun out hout => ?_⟩
    · simp only [Reference.kernel_multiply_eq_ok_iff, hcall, hsize, exists_and_left, exists_eq,
        and_true]
      exact ⟨fun hf => ⟨hf.c_word, hf⟩, fun h => h.2⟩
    · obtain ⟨hf, rfl⟩ := Reference.kernel_multiply_eq_ok_iff.1 hout
      rw [← hsize] at hf
      exact (Reference.multiplyChecked_of_fits hf).2.trans
        (Reference.product_of_size hsize Array.size_replicate)

/-- An inner extent of zero, with A and B absent, and a buffer of sentinels for C. -/
theorem forms_agree_absent :
    let s : Shape := ⟨1, 2, 0⟩
    Reference.Lent none (s.m * s.k) ∧ Reference.Lent (some #[.nan, .one]) (s.m * s.n) ∧
      Reference.multiplyRaw s none none (some #[.nan, .one]) = (.ok (), some #[.zero, .zero]) ∧
      (∃ out, (Kernel.reference.multiply s #[] #[]).result = .ok out) ∧
      (∃ f, (Reference.multiply s #[] #[] #[.nan]).result = .error f) ∧
      (Reference.multiply s #[] #[] #[.nan]).c = #[.nan] := by
  intro s
  obtain ⟨hpair, hraw, hown⟩ := forms_agree s
  have hla : Reference.Lent none (s.m * s.k) := rfl
  have hlb : Reference.Lent none (s.k * s.n) := rfl
  have hlc : Reference.Lent (some #[.nan, .one]) (s.m * s.n) := rfl
  have hshort : ∃ f, (Reference.multiply s #[] #[] #[.nan]).result = .error f := ⟨_, rfl⟩
  refine ⟨hla, hlc, ?_, ?_, hshort, ((hpair #[] #[] #[.nan]).2.2.1 hshort).2.1⟩
  · rw [hraw none none (some #[.nan, .one]) (by decide) (by decide) (by decide) hla hlb hlc]
    rfl
  · exact (hown #[] #[] #[.nan, .one] rfl).1.2 ⟨by decide, rfl⟩

end DenseMatmul
