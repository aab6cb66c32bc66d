import DenseMatmul.Proofs.Forms
import DenseMatmul.Proofs.Transposed
import DenseMatmul.Proofs.Widening
/-!
# Exact cross-checks

On whole numbers small enough nothing is rounded, whatever the order of the factors and the width of
the sums. Then the product by way of transposes checks the reference bit by bit
(`whole_products_agree`): each running sum, in single precision and in double, is the nearest number
to the exact sum so far, and a sum that comes to zero is a positive zero in both.
-/

namespace DenseMatmul

open Conformance
open Reference (place_lt row_lt col_lt)

/-- The operands hold the whole numbers `A` and `B` wherever a product reads them, and the products
for any one element of C add up to no more than single precision can count to, signs left aside. -/
structure SmallWhole (s : Shape) (a b : Buffer) (A B : Nat → Int) : Prop where
  a_whole : ∀ place < s.m * s.k, a[place]!.IsWhole (A place)
  b_whole : ∀ place < s.k * s.n, b[place]!.IsWhole (B place)
  small : ∀ i < s.m, ∀ j < s.n,
    ∑ p ∈ Finset.range s.k, |A (i * s.k + p)| * |B (p * s.n + j)| ≤ 2 ^ 24

/-- The exact value of element `(i, j)` of C after the first `p` products. -/
def exactTo (s : Shape) (A B : Nat → Int) (i j p : Nat) : Int :=
  ∑ q ∈ Finset.range p, A (i * s.k + q) * B (q * s.n + j)

namespace SmallWhole

variable {s : Shape} {a b : Buffer} {A B : Nat → Int} {i j p : Nat}

/-- The products so far, signs left aside, are some of those that are bounded. -/
theorem partial_small (h : SmallWhole s a b A B) (hi : i < s.m) (hj : j < s.n) (hp : p ≤ s.k) :
    ∑ q ∈ Finset.range p, |A (i * s.k + q)| * |B (q * s.n + j)| ≤ 2 ^ 24 := by
  refine le_trans (Finset.sum_le_sum_of_subset_of_nonneg ?_ fun q _ _ => ?_) (h.small i hi j hj)
  · exact Finset.range_subset_range.2 hp
  · positivity

theorem exactTo_small (h : SmallWhole s a b A B) (hi : i < s.m) (hj : j < s.n) (hp : p ≤ s.k) :
    (exactTo s A B i j p).natAbs ≤ 2 ^ 24 := by
  have habs : |exactTo s A B i j p| ≤ 2 ^ 24 :=
    calc |exactTo s A B i j p|
        ≤ ∑ q ∈ Finset.range p, |A (i * s.k + q) * B (q * s.n + j)| :=
          Finset.abs_sum_le_sum_abs _ _
      _ = ∑ q ∈ Finset.range p, |A (i * s.k + q)| * |B (q * s.n + j)| := by simp only [abs_mul]
      _ ≤ 2 ^ 24 := h.partial_small hi hj hp
  rw [Int.abs_eq_natAbs] at habs
  omega

theorem term_small (h : SmallWhole s a b A B) (hi : i < s.m) (hj : j < s.n) (hp : p < s.k) :
    (A (i * s.k + p) * B (p * s.n + j)).natAbs ≤ 2 ^ 24 := by
  have habs : |A (i * s.k + p) * B (p * s.n + j)| ≤ 2 ^ 24 := by
    rw [abs_mul]
    refine le_trans (Finset.single_le_sum (f := fun q => |A (i * s.k + q)| * |B (q * s.n + j)|)
      (fun q _ => by positivity) (Finset.mem_range.2 hp)) (h.small i hi j hj)
  rw [Int.abs_eq_natAbs] at habs
  omega

theorem exactTo_succ : exactTo s A B i j (p + 1) =
    exactTo s A B i j p + A (i * s.k + p) * B (p * s.n + j) :=
  Finset.sum_range_succ _ _

/-- The running sum in single precision, after any number of products. -/
theorem sumTo_eq (h : SmallWhole s a b A B) (hi : i < s.m) (hj : j < s.n) (hp : p ≤ s.k) :
    Reference.sumTo s a b i j p = Single.ofInt (exactTo s A B i j p) := by
  induction p with
  | zero => rfl
  | succ p ih =>
    have ha := h.a_whole _ (place_lt hi hp)
    have hb := h.b_whole _ (place_lt hp hj)
    have hterm := Single.isWhole_mul ha hb (h.term_small hi hj hp)
    rw [Reference.sumTo, ih (by omega), exactTo_succ,
      Single.ofInt_add (h.exactTo_small hi hj (by omega)) hterm]

/-- The running sum in double precision. -/
theorem entryTo_eq (h : SmallWhole s a b A B) (hi : i < s.m) (hj : j < s.n) (hp : p ≤ s.k) :
    Single.rawDouble (TransposedProduct.entryTo s a b i j p) =
      Rounding.encode .binary64 (exactTo s A B i j p) := by
  induction p with
  | zero => exact Single.rawDouble_zero
  | succ p ih =>
    have ha := h.a_whole _ (place_lt hi hp)
    have hb := h.b_whole _ (place_lt hp hj)
    have hwide : 2 ^ 24 ≤ 2 ^ 53 := by decide
    have hsum := le_trans (h.exactTo_small hi hj (Nat.le_of_succ_le hp)) hwide
    have hterm := le_trans (h.term_small hi hj hp) hwide
    rw [Int.mul_comm] at hterm
    rw [TransposedProduct.entryTo, exactTo_succ, Int.mul_comm (A _),
      Single.rawDouble_add_mul (ih (by omega)) hb ha hsum hterm]

theorem dot_eq (h : SmallWhole s a b A B) (hi : i < s.m) (hj : j < s.n) :
    Reference.dot s a b i j = Single.ofInt (exactTo s A B i j s.k) :=
  h.sumTo_eq hi hj le_rfl

theorem entry_eq (h : SmallWhole s a b A B) (hi : i < s.m) (hj : j < s.n) :
    TransposedProduct.entry s a b i j = Single.ofInt (exactTo s A B i j s.k) :=
  Single.ofDouble_of_encode (h.exactTo_small hi hj le_rfl) (h.entryTo_eq hi hj le_rfl)

/-- The two products, one made in a new buffer and one turned back from its transpose. -/
theorem flipped_eq_product (h : SmallWhole s a b A B) :
    Transpose.flipped (TransposedProduct.narrowed s a b) s.n s.m =
      Reference.product s a b (.replicate (s.m * s.n) .zero) := by
  refine Step.eq_fill (by simp) (fun cell hcell => ?_) fun cell hcell => ?_
  · have hi := row_lt hcell
    have hj := col_lt hcell
    have hplace := TransposedProduct.product_place (a := a) (b := b) hi hj
    rw [Nat.div_add_mod'] at hplace
    rw [hplace, h.entry_eq hi hj, Reference.element, h.dot_eq hi hj]
  · rw [Array.getElem?_eq_none (by simpa [Nat.mul_comm] using hcell),
      Array.getElem?_eq_none (by simpa using hcell)]

end SmallWhole

/-- The product in a new buffer is the part of any other that is written. -/
theorem Reference.extract_product {s : Shape} {old : Buffer} (a b : Buffer)
    (hc : s.m * s.n ≤ old.size) : (product s a b old).extract 0 (s.m * s.n) =
      product s a b (.replicate (s.m * s.n) .zero) := by
  refine Step.eq_fill (by simp) (fun cell hcell => ?_) fun cell hcell => ?_
  · rw [Array.getElem?_extract, Nat.zero_add, product, Step.fill_of_lt hcell hc]
    simp [hc, hcell]
  · rw [Array.getElem?_eq_none (by simpa using by omega),
      Array.getElem?_eq_none (by simpa using hcell)]

/-- On operands that hold small whole numbers the reference and the product by way of transposes both
answer, with the same bits: those of the exact sums, which are whole numbers of single precision, a
sum of zero being a positive zero. In a buffer of the caller the reference leaves them too. -/
theorem whole_products_agree {s : Shape} {a b old : Buffer} {A B : Nat → Int}
    (hfits : s.Fits a.size b.size old.size) (h : SmallWhole s a b A B) :
    let exact (i j : Nat) : Int := ∑ p ∈ Finset.range s.k, A (i * s.k + p) * B (p * s.n + j)
    let call := Kernel.reference.multiplyInto s a b old
    call.answer.result = .ok () ∧
      (∀ i < s.m, ∀ j < s.n, (Single.ofInt (exact i j)).IsWhole (exact i j) ∧
        call.c[i * s.n + j]? = some (Single.ofInt (exact i j)) ∧
        (exact i j = 0 → call.c[i * s.n + j]? = some .zero)) ∧
      (Kernel.reference.multiply s a b).result = .ok (call.c.extract 0 (s.m * s.n)) ∧
      (TransposedProduct.multiply s a b).result = .ok (call.c.extract 0 (s.m * s.n)) := by
  intro exact call
  obtain ⟨hanswer, hc⟩ : call.answer.result = .ok () ∧ call.c = Reference.product s a b old :=
    Reference.multiplyChecked_of_fits hfits
  have hnew : s.Fits a.size b.size (s.m * s.n) := { hfits with c_le := le_rfl }
  have hextract := Reference.extract_product a b hfits.c_le
  refine ⟨hanswer, fun i hi j hj => ?_, ?_, ?_⟩
  · have hcell : call.c[i * s.n + j]? = some (Single.ofInt (exact i j)) := by
      rw [hc, Reference.product_place hi hj hfits.c_le, h.dot_eq hi hj]
      rfl
    refine ⟨Single.isWhole_ofInt (h.exactTo_small hi hj le_rfl), hcell, fun hzero => ?_⟩
    rw [hcell, hzero, Single.ofInt_zero]
  · rw [hc, hextract]
    exact Reference.kernel_multiply_eq_ok_iff.2 ⟨hnew, rfl⟩
  · rw [hc, hextract, TransposedProduct.multiply_eq hnew, h.flipped_eq_product]

/-- Two rows and three columns, with a sum that cancels, a negative zero and the largest sum there can
be. -/
theorem whole_products_agree_cancelled :
    let s : Shape := ⟨2, 3, 2⟩
    let a : Buffer := #[⟨0x3f800000⟩, ⟨0xbf800000⟩, ⟨0x40000000⟩, ⟨0x80000000⟩]
    let b : Buffer := #[⟨0x40a00000⟩, ⟨0x80000000⟩, ⟨0x4b000000⟩, ⟨0x40a00000⟩, .zero, .zero]
    let A (place : Nat) : Int := #[1, -1, 2, 0][place]!
    let B (place : Nat) : Int := #[5, 0, 8388608, 5, 0, 0][place]!
    let call := Kernel.reference.multiplyInto s a b (.replicate 7 .nan)
    s.Fits a.size b.size 7 ∧ SmallWhole s a b A B ∧
      call.c[0]? = some .zero ∧ call.c[5]? = some (Single.ofInt 16777216) ∧
      (TransposedProduct.multiply s a b).result = .ok (call.c.extract 0 6) := by
  intro s a b A B call
  have hfits : s.Fits a.size b.size 7 :=
    ⟨by decide, by decide, by decide, by decide, by decide, by decide⟩
  have hwhole : SmallWhole s a b A B := ⟨by decide, by decide, by decide⟩
  obtain ⟨-, hcell, -, hback⟩ := @whole_products_agree s a b (.replicate 7 .nan) A B hfits hwhole
  exact ⟨hfits, hwhole, (hcell 0 (by decide) 0 (by decide)).2.2 (by decide),
    (hcell 1 (by decide) 2 (by decide)).2.1, hback⟩

end DenseMatmul
