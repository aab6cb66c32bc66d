import DenseMatmul.Proofs.Bands
import DenseMatmul.Proofs.Forms
import DenseMatmul.Proofs.Workspaces
/-!
# Products of matrices

A matrix knows its extents, so what a kernel may find wrong with the buffers it is given cannot be
wrong with those of two matrices: they have the lengths that the shape of the product asks for. What is
left to go wrong is that the inner extents differ, or that the product has more elements than a word can
count, as that of two matrices without any may. Every other product is made, and element `(i, j)` is the
sum of the products of row `i` and column `j` from left to right, begun at positive zero
(`multiply_exact`).
-/

namespace DenseMatmul

/-- A faithful kernel makes the product that the reference makes. -/
theorem Kernel.Faithful.multiply {kernel : Kernel} (hf : kernel.Faithful) (s : Shape) (a b : Buffer) :
    (kernel.multiply s a b).result = (Kernel.reference.multiply s a b).result := by
  simp only [Kernel.multiply, Logged.result_bind, (hf ..).result, (hf ..).c]
  rfl

namespace Matrix

variable {kernel : Kernel} {x y z : Matrix} {i j : Nat}

/-! ## The product -/

/-- The shape of the product of two matrices. -/
def productShape (x y : Matrix) : Shape := ⟨x.rows, y.cols, x.cols⟩

/-- The product of two matrices, each element summed as the reference sums it. -/
def product (x y : Matrix) : Matrix where
  data := Reference.product (productShape x y) x.data y.data (.replicate (x.rows * y.cols) .zero)
  rows := x.rows
  cols := y.cols

theorem wellFormed_product (hword : x.rows * y.cols < wordLimit) : (product x y).WellFormed :=
  ⟨by simp [product], hword⟩

theorem product_place (hi : i < x.rows) (hj : j < y.cols) :
    (product x y).data[i * y.cols + j]? =
      some (Reference.dot (productShape x y) x.data y.data i j) :=
  Reference.product_place hi hj (Nat.le_of_eq Array.size_replicate.symm)

/-- A faithful kernel multiplies matrices if they fit and the elements of the product can be counted
in a word. -/
theorem multiply_eq_ok_iff (hf : kernel.Faithful) (hx : x.WellFormed) (hy : y.WellFormed) :
    (multiply kernel x y).result = .ok z ↔
      x.cols = y.rows ∧ x.rows * y.cols < wordLimit ∧ z = product x y := by
  unfold multiply
  split
  case isFalse h => simp [h]
  case isTrue h =>
    have hb : x.cols * y.cols = y.rows * y.cols := by rw [h]
    have hfits : (productShape x y).Fits x.data.size y.data.size (x.rows * y.cols) ↔
        x.rows * y.cols < wordLimit :=
      ⟨fun hfits => hfits.c_word, fun hword => ⟨hx.word, Nat.le_of_eq hx.size.symm, hb ▸ hy.word,
        Nat.le_of_eq (hb.trans hy.size.symm), hword, Nat.le_refl _⟩⟩
    simp only [Logged.bind_eq_ok_iff, hf.multiply, Reference.kernel_multiply_eq_ok_iff]
    constructor
    · rintro ⟨data, ⟨hdata, rfl⟩, hz⟩
      exact ⟨h, hfits.1 hdata, (Except.ok.inj hz).symm⟩
    · rintro ⟨-, hword, rfl⟩
      exact ⟨_, ⟨hfits.2 hword, rfl⟩, rfl⟩

/-! ## What is refused -/

theorem multiply_of_mismatch (h : x.cols ≠ y.rows) : (multiply kernel x y).result =
    .error (.refused (.innerMismatch x.rows x.cols y.rows y.cols)) := by
  unfold multiply
  rw [if_neg h]
  rfl

theorem multiply_of_overflow (hf : kernel.Faithful) (hinner : x.cols = y.rows)
    (h : wordLimit ≤ x.rows * y.cols) :
    (multiply kernel x y).result = .error (.refused (.dimensionOverflow x.rows y.cols)) := by
  have hrefused := Reference.kernel_multiply_of_overflow (s := productShape x y) (a := x.data)
    (b := y.data) h
  unfold multiply
  rw [if_pos hinner, Logged.result_bind, hf.multiply]
  exact congrArg (· >>= _) hrefused

/-! ## Element by element -/

/-- The sum of the products of row `i` and column `j`, from left to right, as reading the matrices
gives them. -/
def rowTimesColumn (x y : Matrix) (i j : Nat) : Except Fault Single :=
  (List.range x.cols).foldlM (fun sum p => do return sum + (← x.get i p) * (← y.get p j)) .zero

theorem get_eq (h : x.WellFormed) (hi : i < x.rows) (hj : j < x.cols) :
    x.get i j = .ok x.data[i * x.cols + j]! := by
  obtain ⟨value, hvalue, hget⟩ := get_of_inside h hi hj
  rw [hget, getElem!_def, hvalue]

theorem rowTimesColumn_eq (hx : x.WellFormed) (hy : y.WellFormed) (hinner : x.cols = y.rows)
    (hi : i < x.rows) (hj : j < y.cols) :
    rowTimesColumn x y i j = .ok (Reference.dot (productShape x y) x.data y.data i j) := by
  refine foldlM_range (g := Reference.sumTo (productShape x y) x.data y.data i j) fun p hp => ?_
  rw [get_eq hx hi hp, get_eq hy (hinner ▸ hp) hj]
  rfl

theorem get_product (hword : x.rows * y.cols < wordLimit) (hi : i < x.rows) (hj : j < y.cols) :
    (product x y).get i j = .ok (Reference.dot (productShape x y) x.data y.data i j) := by
  obtain ⟨value, hvalue, hget⟩ := get_of_inside (wellFormed_product hword) hi hj
  obtain rfl := Option.some.inj (hvalue.symm.trans (product_place hi hj))
  exact hget

/-- What multiplying two matrices gives, with any of the kernels there are. Matrices whose inner extents
differ are refused for that. Others are refused if their product has more elements than a word can
count, and if not they are multiplied. Nothing else is ever refused, no buffer in particular for its
length, and no call stops. -/
theorem multiply_exact (hk : kernel.Provided) (hx : x.Reachable) (hy : y.Reachable) :
    let result := (multiply kernel x y).result
    (∀ e, result = .error (.refused e) ↔
      x.cols ≠ y.rows ∧ e = .innerMismatch x.rows x.cols y.rows y.cols ∨
      x.cols = y.rows ∧ wordLimit ≤ x.rows * y.cols ∧ e = .dimensionOverflow x.rows y.cols) ∧
    (∀ buffer required got, result ≠ .error (.refused (.bufferTooShort buffer required got))) ∧
    (∀ f, result ≠ .error (.halted f)) ∧
    ((∃ z, result = .ok z) ↔ x.cols = y.rows ∧ x.rows * y.cols < wordLimit) ∧
    ∀ z, result = .ok z → z.rows = x.rows ∧ z.cols = y.cols ∧
      ∀ i < x.rows, ∀ j < y.cols, ∃ value, z.get i j = .ok value ∧
        rowTimesColumn x y i j = .ok value := by
  intro result
  have hf := hk.faithful
  rw [reachable_iff_wellFormed] at hx hy
  by_cases hinner : x.cols = y.rows
  · by_cases hword : x.rows * y.cols < wordLimit
    · have hresult : result = .ok (product x y) :=
        (multiply_eq_ok_iff hf hx hy).2 ⟨hinner, hword, rfl⟩
      rw [hresult]
      refine ⟨by simp [hinner, hword], by simp, by simp, by simp [hinner, hword], fun z hz => ?_⟩
      obtain rfl := Except.ok.inj hz
      refine ⟨rfl, rfl, fun i hi j hj => ?_⟩
      exact ⟨_, get_product hword hi hj, rowTimesColumn_eq hx hy hinner hi hj⟩
    · have hresult : result = .error (.refused (.dimensionOverflow x.rows y.cols)) :=
        multiply_of_overflow hf hinner (Nat.not_lt.1 hword)
      simp [hresult, hinner, hword, Nat.not_lt.1 hword, eq_comm]
  · have hresult : result = .error (.refused (.innerMismatch x.rows x.cols y.rows y.cols)) :=
      multiply_of_mismatch hinner
    simp [hresult, hinner, eq_comm]

/-- Matrices without elements, whose product would have `2 ^ 64`, and an infinity by zero, in bands. -/
theorem multiply_exact_empty_and_nan :
    let kernel := Kernel.rowParallel ((Banding.ofThreads 2).withSplit 0 0)
    let tall : Matrix := ⟨#[], 0x100000000, 0⟩
    let wide : Matrix := ⟨#[], 0, 0x100000000⟩
    let row : Matrix := ⟨#[.one, .infinity], 1, 2⟩
    let column : Matrix := ⟨#[.one, .zero], 2, 1⟩
    (tall.Reachable ∧ wide.Reachable ∧ row.Reachable ∧ column.Reachable) ∧
      (multiply kernel tall wide).result =
        .error (.refused (.dimensionOverflow 0x100000000 0x100000000)) ∧
      ∃ z, (multiply kernel row column).result = .ok z ∧ z.get 0 0 = .ok .nan := by
  intro kernel tall wide row column
  have hkernel : kernel.Provided := .rowParallel _
  have htall : tall.Reachable := reachable_iff_wellFormed.2 ⟨rfl, by decide⟩
  have hwide : wide.Reachable :=
    reachable_iff_wellFormed.2 ⟨by simp [wide], by simp [wide, wordLimit]⟩
  have hrow : row.Reachable := reachable_iff_wellFormed.2 ⟨rfl, by decide⟩
  have hcolumn : column.Reachable := reachable_iff_wellFormed.2 ⟨rfl, by decide⟩
  obtain ⟨hrefused, -⟩ := multiply_exact hkernel htall hwide
  have hlarge : wordLimit ≤ tall.rows * wide.cols := by decide
  obtain ⟨-, -, -, hanswered, hproduct⟩ := multiply_exact hkernel hrow hcolumn
  obtain ⟨z, hz⟩ := hanswered.2 ⟨rfl, by decide⟩
  obtain ⟨-, -, hplaces⟩ := hproduct z hz
  obtain ⟨value, hget, hsum⟩ := hplaces 0 (by decide) 0 (by decide)
  have hdot := rowTimesColumn_eq (reachable_iff_wellFormed.1 hrow) (reachable_iff_wellFormed.1 hcolumn)
    rfl (i := 0) (j := 0) (by decide) (by decide)
  have hnan : Reference.dot (productShape row column) row.data column.data 0 0 = .nan := by decide
  obtain rfl := Except.ok.inj (hsum.symm.trans (hdot.trans (congrArg Except.ok hnan)))
  exact ⟨⟨htall, hwide, hrow, hcolumn⟩, (hrefused _).2 (.inr ⟨rfl, hlarge, rfl⟩), z, hz, hget⟩

end Matrix

end DenseMatmul
