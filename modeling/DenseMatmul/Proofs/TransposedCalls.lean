import DenseMatmul.Proofs.Conversion
import DenseMatmul.Proofs.Forms
import DenseMatmul.Proofs.Transposed
/-!
# Calls of the product by way of transposes

A call checks the lengths of A and B and goes on with both transposes and all the sums. Where the
operands are long enough that ends well, provided that a word can count the elements of C. Nothing
checks that, and with nothing to sum over A and B may be empty and say nothing of C: the reference
refuses such a product, and this one stops on it (`multiply_of_overflows`). In any other the cells hold
their sums, added up in double precision and narrowed at the end, and nothing past the matrices bears on
them (`entryTo_congr`).
-/

namespace DenseMatmul

open Float.Model

namespace Conformance.TransposedProduct

variable {s : Shape} {a b a' b' : Buffer}

/-! ## Calls that end early -/

/-- The checks of a call, in order. The length of C is not among them. -/
def checks (s : Shape) (aSize bSize : Nat) : List Shape.Check :=
  [⟨wordLimit ≤ s.m * s.k, .dimensionOverflow s.m s.k⟩,
    ⟨wordLimit ≤ s.k * s.n, .dimensionOverflow s.k s.n⟩,
    ⟨aSize < s.m * s.k, .bufferTooShort .a (s.m * s.k) aSize⟩,
    ⟨bSize < s.k * s.n, .bufferTooShort .b (s.k * s.n) bSize⟩]

theorem validate_eq_refusal (s : Shape) (aSize bSize : Nat) :
    validate s aSize bSize = (Shape.refusal (checks s aSize bSize)).elim (.ok ()) .error := by
  unfold validate Shape.aLen Shape.bLen elementCount checkLength Shape.refusal checks
  by_cases haw : s.m * s.k < wordLimit
  · by_cases hbw : s.k * s.n < wordLimit
    · by_cases ha : aSize < s.m * s.k
      · simp [haw, hbw, ha, bind, Except.bind]
      · by_cases hb : bSize < s.k * s.n <;> simp [haw, hbw, ha, hb, bind, Except.bind]
    · simp [List.find?, haw, Nat.not_le.2 haw, hbw, Nat.not_lt.1 hbw, bind, Except.bind]
  · simp [List.find?, haw, Nat.not_lt.1 haw, bind, Except.bind]

/-- Buffers whose sizes are words pass the checks as soon as they are long enough. -/
theorem refusal_checks_eq_none_iff (ha : a.size < wordLimit) (hb : b.size < wordLimit) :
    Shape.refusal (checks s a.size b.size) = none ↔ s.m * s.k ≤ a.size ∧ s.k * s.n ≤ b.size := by
  simp [Shape.refusal, checks]
  omega

/-- The first check that fails gives the error. -/
theorem multiply_of_refusal {e : MatmulError} (h : Shape.refusal (checks s a.size b.size) = some e) :
    (multiply s a b).result = .error (.refused (.kernel e)) := by
  simp only [multiply, Logged.result_bind, validate_eq_refusal, h]
  rfl

/-- Operands that are long enough, for a product with more elements than a word can count. -/
structure Overflows (s : Shape) (a b : Buffer) : Prop where
  a_word : s.m * s.k < wordLimit
  a_le : s.m * s.k ≤ a.size
  b_word : s.k * s.n < wordLimit
  b_le : s.k * s.n ≤ b.size
  c_large : wordLimit ≤ s.m * s.n

theorem transposed_of_overflows (h : Overflows s a b) : transposed s a b = .error .wordOverflow := by
  have hla := h.a_le
  have hlb := h.b_le
  have haPart : a.slice 0 (s.m * s.k) = .ok (a.extract 0 (s.m * s.k)) :=
    Buffer.slice_eq_ok_iff.2 ⟨Nat.zero_le _, hla, rfl⟩
  have hbPart : b.slice 0 (s.k * s.n) = .ok (b.extract 0 (s.k * s.n)) :=
    Buffer.slice_eq_ok_iff.2 ⟨Nat.zero_le _, hlb, rfl⟩
  have haT := Buffer.transpose_eq (b := a.extract 0 (s.m * s.k)) h.a_word (by simp [hla])
  have hbT := Buffer.transpose_eq (b := b.extract 0 (s.k * s.n)) h.b_word (by simp [hlb])
  -- Both transposes are made before the sums, and only these are too many.
  have hsums : wordLimit ≤ s.n * s.m := Nat.mul_comm s.m s.n ▸ h.c_large
  simp only [transposed, haPart, hbPart, haT, hbT, product, if_pos hsums, bind, Except.bind]
  rfl

/-- Such a product passes the checks and stops the call. -/
theorem multiply_of_overflows (h : Overflows s a b) :
    (multiply s a b).result = .error (.halted .wordOverflow) := by
  have hpass : Shape.refusal (checks s a.size b.size) = none := by
    simp [Shape.refusal, checks, h.a_word, h.a_le, h.b_word, h.b_le]
  simp only [multiply, Logged.result_bind, validate_eq_refusal, hpass, transposed_of_overflows h]
  rfl

/-! ## Which calls are answered -/

/-- A call that goes as one of the reference does. It never stops. It refuses what the reference refuses,
which is a product whose operands are too short or whose elements a word cannot count, and it gives all
elements of any other. -/
structure Answers (s : Shape) (a b : Buffer) : Prop where
  never_halts : ∀ f, (multiply s a b).result ≠ .error (.halted f)
  refused_iff : (∃ e, (multiply s a b).result = .error (.refused e)) ↔
    a.size < s.m * s.k ∨ b.size < s.k * s.n ∨ wordLimit ≤ s.m * s.n
  refused_iff_reference : (∃ e, (multiply s a b).result = .error (.refused e)) ↔
    ∃ e, (Kernel.reference.multiply s a b).result = .error (.refused e)
  complete : ¬ (a.size < s.m * s.k ∨ b.size < s.k * s.n ∨ wordLimit ≤ s.m * s.n) →
    ∃ out, (multiply s a b).result = .ok out ∧ out.size = s.m * s.n

theorem answers_of_fits (h : s.Fits a.size b.size (s.m * s.n)) : Answers s a b := by
  have hresult := multiply_eq h
  have hreference := Reference.kernel_multiply_eq_ok_iff.2 ⟨h, rfl⟩
  have hfine : ¬ (a.size < s.m * s.k ∨ b.size < s.k * s.n ∨ wordLimit ≤ s.m * s.n) := by
    have := h.a_le
    have := h.b_le
    have := h.c_word
    omega
  refine ⟨by simp [hresult], by simp [hresult, hfine], by simp [hresult, hreference], fun _ =>
    ⟨_, hresult, ?_⟩⟩
  exact Transpose.size_flipped_comm

theorem answers_of_refusal {e : MatmulError} (h : Shape.refusal (checks s a.size b.size) = some e)
    (hshort : ¬ (s.m * s.k ≤ a.size ∧ s.k * s.n ≤ b.size)) : Answers s a b := by
  have hresult := multiply_of_refusal h
  have hreference := Reference.kernel_multiply_of_not_fits
    (fun hfits : s.Fits a.size b.size (s.m * s.n) => hshort ⟨hfits.a_le, hfits.b_le⟩)
  have hfails : a.size < s.m * s.k ∨ b.size < s.k * s.n ∨ wordLimit ≤ s.m * s.n := by omega
  exact ⟨by simp [hresult], by simp [hresult, hfails], by simp [hresult, hreference], fun hfine =>
    absurd hfails hfine⟩

/-- Every call goes as one of the reference does, with one exception: operands that are long enough for a
product with more elements than a word can count. The reference refuses that, and here the call stops.
A call that is refused names the first check that fails. -/
theorem answers_iff (s : Shape) (a b : Buffer) (ha : a.size < wordLimit) (hb : b.size < wordLimit) :
    (Answers s a b ↔
      ¬ (s.m * s.k ≤ a.size ∧ s.k * s.n ≤ b.size ∧ wordLimit ≤ s.m * s.n)) ∧
    (s.m * s.k ≤ a.size → s.k * s.n ≤ b.size → wordLimit ≤ s.m * s.n →
      (multiply s a b).result = .error (.halted .wordOverflow) ∧
        ∃ e, (Kernel.reference.multiply s a b).result = .error (.refused e)) ∧
    ∀ e, (multiply s a b).result = .error (.refused e) ↔
      ∃ cause, Shape.refusal (checks s a.size b.size) = some cause ∧ e = .kernel cause := by
  have hlong := refusal_checks_eq_none_iff (s := s) ha hb
  cases hcause : Shape.refusal (checks s a.size b.size) with
  | some cause =>
    have hshort : ¬ (s.m * s.k ≤ a.size ∧ s.k * s.n ≤ b.size) := fun h => by
      rw [hlong.2 h] at hcause
      cases hcause
    refine ⟨iff_of_true (answers_of_refusal hcause hshort) fun h => hshort ⟨h.1, h.2.1⟩,
      fun hla hlb => absurd ⟨hla, hlb⟩ hshort, fun e => ?_⟩
    simp [multiply_of_refusal hcause, eq_comm]
  | none =>
    obtain ⟨hla, hlb⟩ := hlong.1 hcause
    by_cases hc : s.m * s.n < wordLimit
    · have hfits : s.Fits a.size b.size (s.m * s.n) :=
        ⟨by omega, hla, by omega, hlb, hc, Nat.le_refl _⟩
      exact ⟨iff_of_true (answers_of_fits hfits) fun h => absurd hc (Nat.not_lt.2 h.2.2),
        fun _ _ hlarge => absurd hc (Nat.not_lt.2 hlarge), by simp [multiply_eq hfits]⟩
    · have hlarge : wordLimit ≤ s.m * s.n := Nat.not_lt.1 hc
      have hresult := multiply_of_overflows ⟨by omega, hla, by omega, hlb, hlarge⟩
      have hreference := Reference.kernel_multiply_of_not_fits
        (fun hfits : s.Fits a.size b.size (s.m * s.n) => hc hfits.c_word)
      exact ⟨iff_of_false (fun h => h.never_halts _ hresult) fun h => h ⟨hla, hlb, hlarge⟩,
        fun _ _ _ => ⟨hresult, hreference⟩, by simp [hresult]⟩

/-- Nothing to sum over: six zeros need no operands. -/
theorem answers_iff_no_products : Answers ⟨2, 3, 0⟩ #[] #[] ∧
    ∃ out, (multiply ⟨2, 3, 0⟩ #[] #[]).result = .ok out ∧ out.size = 6 := by
  have h : Answers ⟨2, 3, 0⟩ #[] #[] :=
    (answers_iff ⟨2, 3, 0⟩ #[] #[] (by decide) (by decide)).1.2 (by decide)
  exact ⟨h, h.complete (by decide)⟩

/-- With two rows and `2 ^ 63` columns, still nothing to sum over, C has as many elements as there are
words. -/
theorem overflow_not_answered :
    let s : Shape := ⟨2, 0x8000000000000000, 0⟩
    (multiply s #[] #[]).result = .error (.halted .wordOverflow) ∧
      (Kernel.reference.multiply s #[] #[]).result =
        .error (.refused (.dimensionOverflow 2 0x8000000000000000)) ∧
      ¬ ∀ (s : Shape) (a b : Buffer), a.size < wordLimit → b.size < wordLimit → Answers s a b := by
  intro s
  have hresult : (multiply s #[] #[]).result = .error (.halted .wordOverflow) :=
    multiply_of_overflows ⟨by decide, by decide, by decide, by decide, by decide⟩
  exact ⟨hresult, Reference.kernel_multiply_of_overflow (by decide), fun h => (h s #[] #[] (by decide) (by decide)).never_halts _ hresult⟩

/-! ## The sums -/

theorem entryTo_eq_foldl (s : Shape) (a b : Buffer) (i j p : Nat) :
    entryTo s a b i j p = (List.range p).foldl (fun sum p =>
      sum + b[p * s.n + j]!.toDouble * a[i * s.k + p]!.toDouble) 0 := by
  induction p with
  | zero => rfl
  | succ p ih => rw [entryTo, ih, List.range_succ, List.foldl_append, List.foldl_cons, List.foldl_nil]

theorem entryTo_congr {i j p : Nat} (ha : ∀ place < s.m * s.k, a'[place]? = a[place]?)
    (hb : ∀ place < s.k * s.n, b'[place]? = b[place]?) (hi : i < s.m) (hj : j < s.n) (hp : p ≤ s.k) :
    entryTo s a' b' i j p = entryTo s a b i j p := by
  induction p with
  | zero => rfl
  | succ p ih =>
    rw [entryTo, entryTo, ih (by omega),
      Reference.getElem!_congr ha (Reference.place_lt hi (by omega)),
      Reference.getElem!_congr hb (Reference.place_lt (by omega) hj)]

theorem narrowed_congr (ha : ∀ place < s.m * s.k, a'[place]? = a[place]?)
    (hb : ∀ place < s.k * s.n, b'[place]? = b[place]?) : narrowed s a' b' = narrowed s a b := by
  refine congrArg Array.ofFn (funext fun cell => ?_)
  have hi : (cell : Nat) % s.m < s.m := Reference.col_lt (s := ⟨s.n, s.m, 0⟩) cell.isLt
  have hj : (cell : Nat) / s.m < s.n := Reference.row_lt (s := ⟨s.n, s.m, 0⟩) cell.isLt
  rw [entry, entry, entryTo_congr ha hb hi hj (Nat.le_refl _)]

/-- Buffers that begin alike are long enough alike. -/
theorem le_size_of_congr {length : Nat} (h : ∀ place < length, a'[place]? = a[place]?)
    (hle : length ≤ a.size) : length ≤ a'.size := by
  apply Nat.le_of_not_lt
  intro hlt
  have hend := h a'.size hlt
  rw [Array.getElem?_eq_none (Nat.le_refl _), eq_comm, Array.getElem?_eq_none_iff] at hend
  omega

/-- The call gives all elements, and each is the sum of its products in double precision, begun at zero and
added up one after the other, and rounded once at the end. What the operands hold past their matrices
changes nothing. -/
theorem holds_sums (s : Shape) (a b : Buffer) (ha : a.size < wordLimit) (hb : b.size < wordLimit)
    (hla : s.m * s.k ≤ a.size) (hlb : s.k * s.n ≤ b.size) (hc : s.m * s.n < wordLimit) :
    ∃ out, (multiply s a b).result = .ok out ∧ out.size = s.m * s.n ∧
      (∀ i < s.m, ∀ j < s.n, ∃ x, out[i * s.n + j]? = some x ∧
        let sum := (List.range s.k).foldl (fun sum p =>
          sum + b[p * s.n + j]!.toDouble * a[i * s.k + p]!.toDouble) (0 : Float)
        x = .ofDouble sum ∧
          x.raw = UnpackedFloat.pack .binary32 (Rounding.convert .binary32
            (UnpackedFloat.unpack .binary64 (Single.rawDouble sum)))) ∧
      ∀ a' b' : Buffer, (∀ place < s.m * s.k, a'[place]? = a[place]?) →
        (∀ place < s.k * s.n, b'[place]? = b[place]?) → (multiply s a' b').result = .ok out := by
  have hfits : s.Fits a.size b.size (s.m * s.n) :=
    ⟨by omega, hla, by omega, hlb, hc, Nat.le_refl _⟩
  refine ⟨_, multiply_eq hfits, ?_, fun i hi j hj => ?_, fun a' b' ha' hb' => ?_⟩
  · rw [Transpose.size_flipped, Nat.mul_comm]
  · refine ⟨_, product_place hi hj, ?_⟩
    rw [← entryTo_eq_foldl]
    exact ⟨rfl, Single.raw_ofDouble _⟩
  · have hfits' : s.Fits a'.size b'.size (s.m * s.n) :=
      { hfits with a_le := le_size_of_congr ha' hla, b_le := le_size_of_congr hb' hlb }
    rw [multiply_eq hfits', narrowed_congr ha' hb']

/-- `2 ^ 24 + 1 + 1`, where a sum in single precision would lose both ones, from an operand that goes on
with a NaN and from one that does not. -/
theorem holds_sums_past_single :
    let s : Shape := ⟨1, 1, 3⟩
    let a : Buffer := #[⟨0x4b800000⟩, .one, .one, .nan]
    let b : Buffer := #[.one, .one, .one]
    ∃ out, (multiply s a b).result = .ok out ∧ out[0]? = some ⟨0x4b800001⟩ ∧
      (multiply s #[⟨0x4b800000⟩, .one, .one] b).result = .ok out := by
  intro s a b
  obtain ⟨out, hout, -, hsums, hpast⟩ := holds_sums s a b (by decide) (by decide) (by decide)
    (by decide) (by decide)
  obtain ⟨x, hx, hsum, -⟩ := hsums 0 (by decide) 0 (by decide)
  have hvalue : x = ⟨0x4b800001⟩ := hsum.trans (by decide)
  exact ⟨out, hout, hvalue ▸ hx, hpast _ b (by decide) fun _ _ => rfl⟩

end Conformance.TransposedProduct

end DenseMatmul
