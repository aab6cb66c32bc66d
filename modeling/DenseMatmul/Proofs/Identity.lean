import DenseMatmul.Proofs.Products
import DenseMatmul.Proofs.SingleLaws
/-!
# The identity

Multiplying by the identity changes no finite number, but for the sign of a negative zero. Of the
products for an element all are zeros except one, so its sum goes through three phases: it stays at
positive zero up to that one, becomes it, and stays as it is, whatever the signs of the zeros around it
(`sumTo_of_isZero`). Begun at positive zero it never becomes a negative one, and that is all that is
lost.
-/

namespace DenseMatmul

namespace Reference

variable {s : Shape} {a b : Buffer} {i j d p : Nat}

/-- Where all products but product `d` are zeros, the sum is a positive zero up to that one, and from
there on it is that one. -/
theorem sumTo_of_isZero (hfinite : (a[i * s.k + d]! * b[d * s.n + j]!).isFinite)
    (hzero : ∀ p < s.k, p ≠ d → (a[i * s.k + p]! * b[p * s.n + j]!).IsZero) (hp : p ≤ s.k) :
    sumTo s a b i j p =
      if p ≤ d then .zero else (a[i * s.k + d]! * b[d * s.n + j]!).withPositiveZero := by
  induction p with
  | zero =>
    rw [if_pos (Nat.zero_le d)]
    rfl
  | succ p ih =>
    rw [sumTo, ih (by omega)]
    -- The three phases: product `p` comes before product `d`, or is that one, or comes after it.
    rcases Nat.lt_trichotomy p d with hbefore | rfl | hafter
    · rw [if_pos (by omega), if_pos (by omega)]
      exact Single.add_of_isZero (by decide) Single.zero_ne_negativeZero
        (hzero p hp (Nat.ne_of_lt hbefore))
    · rw [if_pos (by omega), if_neg (by omega)]
      exact Single.zero_add_of_isFinite hfinite
    · rw [if_neg (by omega), if_neg (by omega)]
      exact Single.add_of_isZero (Single.isFinite_withPositiveZero hfinite)
        (Single.withPositiveZero_ne _) (hzero p hp (Nat.ne_of_gt hafter))

theorem dot_of_isZero (hd : d < s.k) (hfinite : (a[i * s.k + d]! * b[d * s.n + j]!).isFinite)
    (hzero : ∀ p < s.k, p ≠ d → (a[i * s.k + p]! * b[p * s.n + j]!).IsZero) :
    dot s a b i j = (a[i * s.k + d]! * b[d * s.n + j]!).withPositiveZero := by
  rw [dot, sumTo_of_isZero hfinite hzero (Nat.le_refl _), if_neg (Nat.not_le.2 hd)]

end Reference

namespace Matrix

open Reference (place_lt place_div place_mod)

variable {x y z : Matrix} {n i j : Nat}

/-! ## The identity itself -/

/-- After `count` rows the diagonal has ones so far, and nothing else has changed. -/
theorem setDiagonal_place {data : Buffer} (hsize : data.size = n * n) (hj : j < n) {count : Nat}
    (hcount : count ≤ n) : (setDiagonal n count data)[i * n + j]? =
      if i = j ∧ i < count then some .one else data[i * n + j]? := by
  induction count with
  | zero => simp [setDiagonal]
  | succ count ih =>
    have hplace : count * n + count < (setDiagonal n count data).size := by
      rw [size_setDiagonal, hsize]
      exact place_lt hcount hcount
    rw [setDiagonal_succ, Array.getElem?_setIfInBounds, ih (by omega)]
    by_cases hhere : count * n + count = i * n + j
    · have hrow : count = i := by rw [← place_div (i := count) hcount, hhere, place_div hj]
      have hcol : count = j := by rw [← place_mod (i := count) hcount, hhere, place_mod hj]
      rw [if_pos hhere, if_pos hplace, if_pos ⟨hrow.symm.trans hcol, by omega⟩]
    · -- Row `count` was not this one, unless the column is another.
      have hother : i = j ∧ i < count + 1 ↔ i = j ∧ i < count := by
        refine and_congr_right fun hij => ⟨fun hlt => ?_, Nat.lt_succ_of_lt⟩
        have hne : i ≠ count := by
          rintro rfl
          exact hhere (by rw [← hij])
        omega
      rw [if_neg hhere]
      simp only [hother]

/-- What `identity` makes, where the elements can be counted. -/
def unit (n : Nat) : Matrix := ⟨setDiagonal n n (.replicate (n * n) .zero), n, n⟩

theorem identity_eq (hn : n * n < wordLimit) : identity n = .ok (unit n) := by
  have hlength : elementCount n n = .ok (n * n) := elementCount_eq_ok_iff.2 ⟨hn, rfl⟩
  simp only [identity, zeros, hlength, bind, Except.bind]
  rfl

theorem wellFormed_unit (hn : n * n < wordLimit) : (unit n).WellFormed :=
  wellFormed_identity (identity_eq hn)

theorem unit_place (hi : i < n) (hj : j < n) :
    (unit n).data[i * n + j]! = if i = j then .one else .zero := by
  have hplace : i * n + j < n * n := place_lt hi hj
  rw [getElem!_def, unit, setDiagonal_place Array.size_replicate hj (Nat.le_refl n)]
  by_cases hij : i = j
  · simp [hij, hj]
  · simp [hij, hplace]

/-! ## Multiplying by it -/

/-- All elements are finite. -/
def AllFinite (x : Matrix) : Prop := ∀ value ∈ x.data, value.isFinite

/-- The matrix with a positive zero for each negative one. -/
def withPositiveZeros (x : Matrix) : Matrix := { x with data := x.data.map Single.withPositiveZero }

theorem wellFormed_withPositiveZeros (h : x.WellFormed) : x.withPositiveZeros.WellFormed :=
  ⟨Array.size_map.trans h.size, h.word⟩

theorem withPositiveZeros_place (h : x.WellFormed) (hi : i < x.rows) (hj : j < x.cols) :
    x.withPositiveZeros.data[i * x.cols + j]? =
      some x.data[i * x.cols + j]!.withPositiveZero := by
  have hplace := h.place_lt_size hi hj
  rw [withPositiveZeros, Array.getElem?_map, Array.getElem?_eq_getElem hplace,
    getElem!_pos x.data _ hplace]
  rfl

theorem isFinite_place (h : x.WellFormed) (hfinite : x.AllFinite) (hi : i < x.rows)
    (hj : j < x.cols) : x.data[i * x.cols + j]!.isFinite := by
  have hplace := h.place_lt_size hi hj
  rw [getElem!_pos x.data _ hplace]
  exact hfinite _ (Array.getElem_mem hplace)

/-- Row `i` of the identity takes element `i` out of each column. -/
theorem dot_unit_left (h : x.WellFormed) (hfinite : x.AllFinite) (hi : i < x.rows)
    (hj : j < x.cols) : Reference.dot (productShape (unit x.rows) x) (unit x.rows).data x.data i j =
      x.data[i * x.cols + j]!.withPositiveZero := by
  have hone : (unit x.rows).data[i * x.rows + i]! * x.data[i * x.cols + j]! =
      x.data[i * x.cols + j]! := by
    rw [unit_place hi hi, if_pos rfl, Single.one_mul_of_isFinite (isFinite_place h hfinite hi hj)]
  have hzero : ∀ p < x.rows, p ≠ i →
      ((unit x.rows).data[i * x.rows + p]! * x.data[p * x.cols + j]!).IsZero := by
    intro p hp hne
    rw [unit_place hi hp, if_neg hne.symm]
    exact Single.isZero_zero_mul (isFinite_place h hfinite hp hj)
  have hdot := Reference.dot_of_isZero (s := ⟨x.rows, x.cols, x.rows⟩) hi
    (hone.symm ▸ isFinite_place h hfinite hi hj) hzero
  exact hdot.trans (congrArg Single.withPositiveZero hone)

/-- Column `j` of the identity takes element `j` out of each row. -/
theorem dot_unit_right (h : x.WellFormed) (hfinite : x.AllFinite) (hi : i < x.rows)
    (hj : j < x.cols) : Reference.dot (productShape x (unit x.cols)) x.data (unit x.cols).data i j =
      x.data[i * x.cols + j]!.withPositiveZero := by
  have hone : x.data[i * x.cols + j]! * (unit x.cols).data[j * x.cols + j]! =
      x.data[i * x.cols + j]! := by
    rw [unit_place hj hj, if_pos rfl, Single.mul_one_of_isFinite (isFinite_place h hfinite hi hj)]
  have hzero : ∀ p < x.cols, p ≠ j →
      (x.data[i * x.cols + p]! * (unit x.cols).data[p * x.cols + j]!).IsZero := by
    intro p hp hne
    rw [unit_place hp hj, if_neg hne]
    exact Single.isZero_mul_zero (isFinite_place h hfinite hi hp)
  have hdot := Reference.dot_of_isZero (s := ⟨x.rows, x.cols, x.cols⟩) hj
    (hone.symm ▸ isFinite_place h hfinite hi hj) hzero
  exact hdot.trans (congrArg Single.withPositiveZero hone)

/-- A product all of whose sums are elements of a matrix, but for the sign of zeros. -/
theorem product_eq_withPositiveZeros (h : x.WellFormed) (hrows : y.rows = x.rows)
    (hcols : z.cols = x.cols) (hdot : ∀ i < x.rows, ∀ j < x.cols,
      Reference.dot (productShape y z) y.data z.data i j =
        x.data[i * x.cols + j]!.withPositiveZero) : product y z = x.withPositiveZeros := by
  have hword : y.rows * z.cols < wordLimit := by
    rw [hrows, hcols]
    exact h.word
  refine ext_place (wellFormed_product hword) (wellFormed_withPositiveZeros h) hrows hcols
    fun i (hi : i < y.rows) j (hj : j < z.cols) => ?_
  have hplace := withPositiveZeros_place h (hrows ▸ hi) (hcols ▸ hj)
  rw [← hdot i (hrows ▸ hi) j (hcols ▸ hj), ← hcols] at hplace
  exact (product_place hi hj).trans hplace.symm

/-- The identity of every size whose elements can be counted in a word. It has ones on the diagonal and
positive zeros elsewhere. With any of the kernels there are it multiplies from either side, and leaves
a matrix of finite numbers as it is, bit for bit, but for a positive zero in place of each negative
one. -/
theorem identity_laws (hn : n * n < wordLimit) :
    ∃ e, identity n = .ok e ∧ e.rows = n ∧ e.cols = n ∧
      (∀ i < n, ∀ j < n, e.get i j = .ok (if i = j then .one else .zero)) ∧
      ∀ kernel : Kernel, kernel.Provided →
        (∀ b : Matrix, b.Reachable → b.rows = n → b.AllFinite →
          (multiply kernel e b).result = .ok b.withPositiveZeros) ∧
        ∀ a : Matrix, a.Reachable → a.cols = n → a.AllFinite →
          (multiply kernel a e).result = .ok a.withPositiveZeros := by
  have hunit := wellFormed_unit hn
  refine ⟨unit n, identity_eq hn, rfl, rfl, fun i hi j hj => ?_, fun kernel hk => ⟨?_, ?_⟩⟩
  · rw [get_eq hunit hi hj]
    exact congrArg Except.ok (unit_place hi hj)
  · rintro b hb rfl hfinite
    rw [reachable_iff_wellFormed] at hb
    have hproduct : product (unit b.rows) b = b.withPositiveZeros :=
      product_eq_withPositiveZeros hb rfl rfl fun i hi j hj => dot_unit_left hb hfinite hi hj
    exact (multiply_eq_ok_iff hk.faithful hunit hb).2 ⟨rfl, hb.word, hproduct.symm⟩
  · rintro a ha rfl hfinite
    rw [reachable_iff_wellFormed] at ha
    have hproduct : product a (unit a.cols) = a.withPositiveZeros :=
      product_eq_withPositiveZeros ha rfl rfl fun i hi j hj => dot_unit_right ha hfinite hi hj
    exact (multiply_eq_ok_iff hk.faithful ha hunit).2 ⟨rfl, ha.word, hproduct.symm⟩

/-- The smallest number and the largest, and zeros of either sign, by two bands. -/
theorem identity_laws_signed_zeros :
    let kernel := Kernel.rowParallel ((Banding.ofThreads 2).withSplit 0 0)
    let x : Matrix := ⟨#[.negativeZero, ⟨0x00000001⟩, ⟨0xff7fffff⟩, .zero], 2, 2⟩
    let z : Matrix := ⟨#[.zero, ⟨0x00000001⟩, ⟨0xff7fffff⟩, .zero], 2, 2⟩
    x.Reachable ∧ x.AllFinite ∧ ∃ e, identity 2 = .ok e ∧
      (multiply kernel e x).result = .ok z ∧ (multiply kernel x e).result = .ok z := by
  intro kernel x z
  have hx : x.Reachable := reachable_iff_wellFormed.2 ⟨rfl, by decide⟩
  have hfinite : x.AllFinite := by
    unfold AllFinite
    decide
  have hz : x.withPositiveZeros = z := by decide +kernel
  obtain ⟨e, he, -, -, -, hlaws⟩ := identity_laws (n := 2) (by decide)
  obtain ⟨hleft, hright⟩ := hlaws kernel (.rowParallel _)
  rw [← hz]
  exact ⟨hx, hfinite, e, he, hleft x hx rfl hfinite, hright x hx rfl hfinite⟩

end Matrix

end DenseMatmul
