import DenseMatmul.Proofs.Bands
import DenseMatmul.Proofs.Forms
import DenseMatmul.Proofs.SingleLaws
/-!
# Special values in a product

What the sums of a product keep, whatever they add up. They start at positive zero, and a sum is a
negative zero only if both of its parts are, so none ever is one (`sumTo_ne_negativeZero`). If they
started at the first product instead, a cell all of whose products are negative zeros would hold one.
And a sum that has taken up what is not a number is none itself from then on
(`sumTo_isNaN_of_product`).
-/

namespace DenseMatmul

namespace Reference

variable {s : Shape} {a b : Buffer} {i j p : Nat}

/-! ## What a sum keeps -/

theorem sumTo_ne_negativeZero (s : Shape) (a b : Buffer) (i j p : Nat) :
    sumTo s a b i j p ≠ .negativeZero := by
  induction p with
  | zero => exact Single.zero_ne_negativeZero
  | succ p ih =>
    intro h
    rw [sumTo, Single.add_eq_negativeZero_iff] at h
    exact ih h.1

/-- Product `p` is not a number, and neither is any sum past it. -/
theorem sumTo_isNaN_of_product (h : (a[i * s.k + p]! * b[p * s.n + j]!).isNaN) {count : Nat}
    (hp : p < count) : (sumTo s a b i j count).isNaN := by
  induction count, hp using Nat.le_induction with
  | base =>
    rw [sumTo, Single.add_of_isNaN (.inr h)]
    rfl
  | succ count _ ih =>
    rw [sumTo, Single.add_of_isNaN (.inl ih)]
    rfl

/-- The factors of a product of buffers that fit are elements of theirs. -/
theorem factors {cSize : Nat} (h : s.Fits a.size b.size cSize) (hi : i < s.m) (hj : j < s.n)
    (hp : p < s.k) : a[i * s.k + p]? = some a[i * s.k + p]! ∧
      b[p * s.n + j]? = some b[p * s.n + j]! := by
  have ha : i * s.k + p < a.size := (place_lt hi hp).trans_le h.a_le
  have hb : p * s.n + j < b.size := (place_lt hp hj).trans_le h.b_le
  rw [getElem!_pos a _ ha, getElem!_pos b _ hb]
  exact ⟨Array.getElem?_eq_getElem ha, Array.getElem?_eq_getElem hb⟩

/-! ## What a product holds -/

theorem product_ne_negativeZero {c : Buffer} (hc : s.m * s.n ≤ c.size) {cell : Nat}
    (hcell : cell < s.m * s.n) :
    ∃ z, (product s a b c)[cell]? = some z ∧ z ≠ .negativeZero :=
  ⟨element s a b cell, Step.fill_of_lt hcell hc,
    sumTo_ne_negativeZero s a b (cell / s.n) (cell % s.n) s.k⟩

theorem dot_isNaN_of_factor (h : a[i * s.k + p]!.isNaN ∨ b[p * s.n + j]!.isNaN) (hp : p < s.k) :
    (dot s a b i j).isNaN := by
  refine sumTo_isNaN_of_product ?_ hp
  rw [Single.mul_of_isNaN h]
  rfl

end Reference

/-- After any call that goes well, of any of the kernels there are and whatever the buffers hold: no
element of the product is a negative zero, and an element is not a number as soon as one of its products
is none, and so as soon as one of the factors is none. -/
theorem special_values_propagate {kernel : Kernel} (hk : kernel.Provided) {s : Shape}
    {a b c : Buffer} (h : (kernel.multiplyInto s a b c).answer.result = .ok ()) :
    let out := (kernel.multiplyInto s a b c).c
    (∀ cell < s.m * s.n, ∃ z, out[cell]? = some z ∧ z ≠ .negativeZero) ∧
      ∀ i < s.m, ∀ j < s.n, ∃ z, out[i * s.n + j]? = some z ∧
        ∀ p < s.k, ∃ x y, a[i * s.k + p]? = some x ∧ b[p * s.n + j]? = some y ∧
          ((x * y).isNaN → z.isNaN) ∧ (x.isNaN ∨ y.isNaN → z.isNaN) := by
  intro out
  have hagrees := hk.faithful s a b c
  have hfits : s.Fits a.size b.size c.size :=
    Reference.fits_of_multiplyChecked (hagrees.result.symm.trans h)
  have hout : out = Reference.product s a b c :=
    hagrees.c.trans (Reference.multiplyChecked_of_fits hfits).2
  rw [hout]
  refine ⟨fun cell => Reference.product_ne_negativeZero hfits.c_le, fun i hi j hj =>
    ⟨_, Reference.product_place hi hj hfits.c_le, fun p hp => ?_⟩⟩
  obtain ⟨hx, hy⟩ := Reference.factors hfits hi hj hp
  exact ⟨_, _, hx, hy, fun hnan => Reference.sumTo_isNaN_of_product hnan hp, fun hnan =>
    Reference.dot_isNaN_of_factor hnan hp⟩

/-- An infinity by zero in the one row, and in the other two products that are negative zeros, in two
bands. -/
theorem special_values_propagate_two_bands :
    let kernel := Kernel.rowParallel ((Banding.ofThreads 2).withSplit 0 0)
    let a : Buffer := #[.infinity, .one, .negativeZero, .negativeZero]
    let call := kernel.multiplyInto ⟨2, 1, 2⟩ a #[.zero, .one] #[.one, .one]
    call.answer.result = .ok () ∧ (∃ z, call.c[0]? = some z ∧ z.isNaN) ∧
      ∃ z, call.c[1]? = some z ∧ z ≠ .negativeZero := by
  intro kernel a call
  have h : call.answer.result = .ok () := by decide
  obtain ⟨hzeros, hnans⟩ := special_values_propagate (.rowParallel _) h
  obtain ⟨z, hz, hproducts⟩ := hnans 0 (by decide) 0 (by decide)
  obtain ⟨x, y, hx, hy, hnan, -⟩ := hproducts 0 (by decide)
  obtain rfl := Option.some.inj hx
  obtain rfl := Option.some.inj hy
  exact ⟨h, ⟨z, hz, hnan (by decide)⟩, hzeros 1 (by decide)⟩

end DenseMatmul
