import DenseMatmul.Proofs.Products
import DenseMatmul.Proofs.SingleLaws
/-!
# The transpose of a product

The transpose of `x y` is the product of the transposes in the other order, and in single precision
it is so exactly. Element `(i, j)` of the one and element `(j, i)` of the other are sums of the same
products in the same order, in which only the factors have changed places (`sumTo_swapped`), and
multiplication does not mind that (`Single.mul_comm`). A sum that is not a number is the canonical NaN
on both sides.
-/

namespace DenseMatmul

/-! ## Factors in the other order -/

/-- The shape of the product of the transposes in the other order. -/
def Shape.swapped (s : Shape) : Shape := ⟨s.n, s.m, s.k⟩

namespace Reference

variable {s : Shape} {a b aFlipped bFlipped : Buffer} {i j : Nat}

/-- Column `i` of the transpose of A and row `j` of the transpose of B. The sums agree product by
product, from the first on. -/
theorem sumTo_swapped (ha : ∀ p < s.k, aFlipped[p * s.m + i]! = a[i * s.k + p]!)
    (hb : ∀ p < s.k, bFlipped[j * s.k + p]! = b[p * s.n + j]!) {p : Nat} (hp : p ≤ s.k) :
    sumTo s.swapped bFlipped aFlipped j i p = sumTo s a b i j p := by
  induction p with
  | zero => rfl
  | succ p ih =>
    have hfactors : bFlipped[j * s.swapped.k + p]! * aFlipped[p * s.swapped.n + i]! =
        a[i * s.k + p]! * b[p * s.n + j]! := by
      rw [← ha p hp, ← hb p hp, Single.mul_comm]
      rfl
    rw [sumTo, sumTo, ih (by omega), hfactors]

end Reference

namespace Matrix

variable {x y z xT yT : Matrix} {i j : Nat}

/-! ## Transposes -/

theorem getElem!_transpose (hx : x.WellFormed) (hxT : x.transpose = .ok xT) (hi : i < x.rows)
    (hj : j < x.cols) : xT.data[j * x.rows + i]! = x.data[i * x.cols + j]! := by
  obtain ⟨y, hy, -, -, -, hdata⟩ := transpose_eq hx
  obtain rfl := Except.ok.inj (hy.symm.trans hxT)
  rw [getElem!_def, getElem!_def, hdata j i hj hi]

/-- Element `(j, i)` of the product of the transposes. -/
theorem dot_transposes (hx : x.WellFormed) (hy : y.WellFormed) (hinner : x.cols = y.rows)
    (hxT : x.transpose = .ok xT) (hyT : y.transpose = .ok yT) (hi : i < x.rows) (hj : j < y.cols) :
    Reference.dot (productShape x y).swapped yT.data xT.data j i =
      Reference.dot (productShape x y) x.data y.data i j := by
  have ha : ∀ p < x.cols, xT.data[p * x.rows + i]! = x.data[i * x.cols + p]! := fun p hp =>
    getElem!_transpose hx hxT hi hp
  have hb : ∀ p < x.cols, yT.data[j * x.cols + p]! = y.data[p * y.cols + j]! := fun p hp => by
    rw [hinner] at hp ⊢
    exact getElem!_transpose hy hyT hp hj
  exact Reference.sumTo_swapped ha hb le_rfl

theorem transpose_product (hx : x.WellFormed) (hy : y.WellFormed) (hinner : x.cols = y.rows)
    (hword : x.rows * y.cols < wordLimit) (hxT : x.transpose = .ok xT) (hyT : y.transpose = .ok yT) :
    (product x y).transpose = .ok (product yT xT) := by
  obtain ⟨xT', hxT', hxRows, hxCols, -⟩ := transpose_eq hx
  obtain rfl := Except.ok.inj (hxT'.symm.trans hxT)
  obtain ⟨yT', hyT', hyRows, hyCols, -⟩ := transpose_eq hy
  obtain rfl := Except.ok.inj (hyT'.symm.trans hyT)
  have hproduct := wellFormed_product hword
  obtain ⟨zT, hzT, hzRows, hzCols, -, hzData⟩ := transpose_eq hproduct
  have hother : (product yT' xT').WellFormed :=
    wellFormed_product (by rwa [hyRows, hxCols, Nat.mul_comm])
  have hshape : productShape yT' xT' = (productShape x y).swapped := by
    simp [productShape, Shape.swapped, hyRows, hxCols, hyCols, hinner]
  rw [hzT]
  refine congrArg Except.ok (ext_place (wellFormed_transpose hproduct hzT) hother
    (hzRows.trans hyRows.symm) (hzCols.trans hxCols.symm) fun j hj i hi => ?_)
  -- Cell `(j, i)` of either side is the sum for cell `(i, j)` of the product.
  rw [hzRows] at hj
  rw [hzCols] at hi ⊢
  have hleft : zT.data[j * x.rows + i]? = (product x y).data[i * y.cols + j]? := hzData j i hj hi
  have hright := product_place (x := yT') (y := xT') (hyRows.symm ▸ hj) (hxCols.symm ▸ hi)
  rw [hxCols, hshape, dot_transposes hx hy hinner hxT' hyT' hi hj] at hright
  exact hleft.trans ((product_place (x := x) (y := y) hi hj).trans hright.symm)

/-- The transpose of a product exists, and is the product of the transposes in the other order: it has
the same extents and the same bits. So it is with any two of the kernels there are, one for each
product, whatever their bands and in whatever order these run. -/
theorem transpose_multiply {left right : Kernel} (hleft : left.Provided) (hright : right.Provided)
    (hx : x.Reachable) (hy : y.Reachable) (hz : (multiply left x y).result = .ok z) :
    ∃ xT yT zT, x.transpose = .ok xT ∧ y.transpose = .ok yT ∧ z.transpose = .ok zT ∧
      (multiply right yT xT).result = .ok zT ∧ zT.rows = y.cols ∧ zT.cols = x.rows := by
  rw [reachable_iff_wellFormed] at hx hy
  obtain ⟨hinner, hword, rfl⟩ := (multiply_eq_ok_iff hleft.faithful hx hy).1 hz
  obtain ⟨xT, hxT, hxRows, hxCols, -⟩ := transpose_eq hx
  obtain ⟨yT, hyT, hyRows, hyCols, -⟩ := transpose_eq hy
  have hswapped : yT.rows * xT.cols < wordLimit := by rwa [hyRows, hxCols, Nat.mul_comm]
  have hmultiply : (multiply right yT xT).result = .ok (product yT xT) :=
    (multiply_eq_ok_iff hright.faithful (wellFormed_transpose hy hyT) (wellFormed_transpose hx hxT)).2
      ⟨hyCols.trans (hinner.symm.trans hxRows.symm), hswapped, rfl⟩
  exact ⟨xT, yT, product yT xT, hxT, hyT, transpose_product hx hy hinner hword hxT hyT, hmultiply,
    hyRows, hxCols⟩

/-- Two rows in two bands on the one side and the reference on the other, with a product of an infinity
by zero, which is a NaN. -/
theorem transpose_multiply_nan :
    let left := Kernel.rowParallel ((Banding.ofThreads 2).withSplit 0 0)
    let x : Matrix := ⟨#[.one, .infinity], 2, 1⟩
    let y : Matrix := ⟨#[.zero, .one], 1, 2⟩
    let z : Matrix := ⟨#[.zero, .one, .nan, .infinity], 2, 2⟩
    let zT : Matrix := ⟨#[.zero, .nan, .one, .infinity], 2, 2⟩
    x.Reachable ∧ y.Reachable ∧ (multiply left x y).result = .ok z ∧
      (multiply .reference ⟨#[.zero, .one], 2, 1⟩ ⟨#[.one, .infinity], 1, 2⟩).result = .ok zT := by
  intro left x y z zT
  have hx : x.Reachable := reachable_iff_wellFormed.2 ⟨rfl, by decide⟩
  have hy : y.Reachable := reachable_iff_wellFormed.2 ⟨rfl, by decide⟩
  have hz : (multiply left x y).result = .ok z := by decide
  obtain ⟨xT, yT, zT', hxT, hyT, hzT, hmultiply, -⟩ :=
    transpose_multiply (.rowParallel _) .reference hx hy hz
  have hxFlipped : x.transpose = .ok ⟨#[.one, .infinity], 1, 2⟩ := by decide
  have hyFlipped : y.transpose = .ok ⟨#[.zero, .one], 2, 1⟩ := by decide
  have hzFlipped : z.transpose = .ok zT := by decide
  obtain rfl := Except.ok.inj (hxT.symm.trans hxFlipped)
  obtain rfl := Except.ok.inj (hyT.symm.trans hyFlipped)
  obtain rfl := Except.ok.inj (hzT.symm.trans hzFlipped)
  exact ⟨hx, hy, hz, hmultiply⟩

end Matrix

end DenseMatmul
