import DenseMatmul.Kernel.Reference
import DenseMatmul.Proofs.Lengths
import DenseMatmul.Proofs.Stores
/-!
# The reference product

`dot` is the sum an element of C should hold: its products from left to right, added up from
positive zero in single precision. The loops of the reference keep one invariant each. The sum is
`sumTo` of the products so far, and C holds `dot` at the cells so far and is as it was past them.

`multiply_eq` is what the unchecked form leaves when the buffers fit, an equation of whole buffers,
and everything else here follows from it.
-/

namespace DenseMatmul.Reference

/-! ## Elements -/

/-- The sum for element `(i, j)` of C after the first `p` products. -/
def sumTo (s : Shape) (a b : Buffer) (i j : Nat) : Nat → Single
  | 0 => .zero
  | p + 1 => sumTo s a b i j p + a[i * s.k + p]! * b[p * s.n + j]!

/-- Row `i` of A times column `j` of B. -/
def dot (s : Shape) (a b : Buffer) (i j : Nat) : Single := sumTo s a b i j s.k

/-- The element that belongs into a cell of C, cells being counted row by row. -/
def element (s : Shape) (a b : Buffer) (cell : Nat) : Single :=
  dot s a b (cell / s.n) (cell % s.n)

/-- What a product should leave of C: the elements of the product, then what was there. -/
def product (s : Shape) (a b c : Buffer) : Buffer := Step.fill (element s a b) (s.m * s.n) c

/-! ## Row-major places -/

theorem place_lt {i j rows cols : Nat} (hi : i < rows) (hj : j < cols) :
    i * cols + j < rows * cols := by
  have h := Nat.mul_le_mul_right cols hi
  rw [Nat.succ_mul] at h
  omega

theorem place_div {i j cols : Nat} (hj : j < cols) : (i * cols + j) / cols = i := by
  have hcols : 0 < cols := by omega
  rw [Nat.mul_comm, Nat.mul_add_div hcols, Nat.div_eq_of_lt hj, Nat.add_zero]

theorem place_mod {i j cols : Nat} (hj : j < cols) : (i * cols + j) % cols = j := by
  rw [Nat.mul_comm, Nat.mul_add_mod, Nat.mod_eq_of_lt hj]

theorem element_place {s : Shape} {a b : Buffer} {i j : Nat} (hj : j < s.n) :
    element s a b (i * s.n + j) = dot s a b i j := by
  rw [element, place_div hj, place_mod hj]

theorem row_lt {s : Shape} {cell : Nat} (h : cell < s.m * s.n) : cell / s.n < s.m :=
  Nat.div_lt_of_lt_mul (by rwa [Nat.mul_comm])

theorem col_lt {s : Shape} {cell : Nat} (h : cell < s.m * s.n) : cell % s.n < s.n :=
  Nat.mod_lt _ (Nat.pos_of_lt_mul_left h)

/-! ## The loops -/

/-- The innermost loop, begun after `p` products. -/
theorem accumulate_eq {s : Shape} {a b : Buffer} {i j : Nat} (hi : i < s.m) (hj : j < s.n)
    (ha : s.m * s.k ≤ a.size) (hb : s.k * s.n ≤ b.size) (count p : Nat) (hp : p + count = s.k) :
    accumulate a b s.n count (i * s.k + p) (p * s.n + j) (sumTo s a b i j p) =
      .ok (dot s a b i j) := by
  induction count generalizing p with
  | zero => rw [accumulate, dot, ← hp, Nat.add_zero]
  | succ count ih =>
    have hia : i * s.k + p < a.size := Nat.lt_of_lt_of_le (place_lt hi (by omega)) ha
    have hjb : p * s.n + j < b.size := Nat.lt_of_lt_of_le (place_lt (by omega) hj) hb
    have hnext : p * s.n + j + s.n = (p + 1) * s.n + j := by rw [Nat.succ_mul]; omega
    rw [accumulate, dif_pos hia, dif_pos hjb, Nat.add_assoc, hnext, ← ih (p + 1) (by omega), sumTo,
      getElem!_pos a _ hia, getElem!_pos b _ hjb]

theorem entry_eq {s : Shape} {a b : Buffer} {cell : Nat} (h : cell < s.m * s.n)
    (ha : s.m * s.k ≤ a.size) (hb : s.k * s.n ≤ b.size) :
    entry s a b cell = .ok (element s a b cell) := by
  simpa [entry, element, sumTo] using accumulate_eq (row_lt h) (col_lt h) ha hb s.k 0 (by omega)

theorem demandAll_eq {s : Shape} {aSize bSize cSize : Nat} (h : s.Fits aSize bSize cSize) :
    demandAll s aSize bSize cSize = .ok () := by
  have hd : ∀ {operand rows cols got}, rows * cols < wordLimit → rows * cols ≤ got →
      demand operand rows cols got = .ok () := fun hw hg => by
    rw [demand, if_neg (Nat.not_le.2 hw), if_neg (Nat.not_lt.2 hg)]
  rw [demandAll, hd h.a_word h.a_le, hd h.b_word h.b_le, hd h.c_word h.c_le]
  rfl

/-- The stores of a product whose buffers fit: every cell once, with its element. -/
theorem steps_eq {s : Shape} {a b : Buffer} {cSize : Nat} (h : s.Fits a.size b.size cSize) :
    steps s a b cSize = (List.range (s.m * s.n)).map (Step.write (element s a b)) := by
  rw [steps, demandAll_eq h]
  refine List.map_congr_left fun cell hcell => ?_
  rw [entry_eq (List.mem_range.1 hcell) h.a_le h.b_le]
  rfl

theorem multiply_eq {s : Shape} {a b c : Buffer} (h : s.Fits a.size b.size c.size) :
    multiply s a b c = ⟨.ok (), product s a b c⟩ := by
  rw [multiply, steps_eq h, Step.run_range_write _ _ _ h.c_le]
  rfl

/-! ## What the product is -/

@[simp] theorem size_product (s : Shape) (a b c : Buffer) : (product s a b c).size = c.size :=
  Step.size_fill ..

theorem product_place {s : Shape} {a b c : Buffer} {i j : Nat} (hi : i < s.m) (hj : j < s.n)
    (hc : s.m * s.n ≤ c.size) : (product s a b c)[i * s.n + j]? = some (dot s a b i j) := by
  rw [product, Step.fill_of_lt (place_lt hi hj) hc, element_place hj]

/-- Nothing past the product is written. -/
theorem product_past {s : Shape} {a b old : Buffer} {i : Nat} (hi : s.m * s.n ≤ i) :
    (product s a b old)[i]? = old[i]? := Step.fill_of_le hi

/-! ## Operands that begin alike -/

section Congruence

variable {s : Shape} {a a' b b' : Buffer}

theorem getElem!_congr {place length : Nat} (h : ∀ place < length, a'[place]? = a[place]?)
    (hplace : place < length) : a'[place]! = a[place]! := by
  rw [getElem!_def, getElem!_def, h place hplace]

/-- Nothing past the matrices bears on a sum. -/
theorem sumTo_congr {i j p : Nat} (ha : ∀ place < s.m * s.k, a'[place]? = a[place]?)
    (hb : ∀ place < s.k * s.n, b'[place]? = b[place]?) (hi : i < s.m) (hj : j < s.n) (hp : p ≤ s.k) :
    sumTo s a' b' i j p = sumTo s a b i j p := by
  induction p with
  | zero => rfl
  | succ p ih =>
    rw [sumTo, sumTo, ih (by omega), getElem!_congr ha (place_lt hi (by omega)),
      getElem!_congr hb (place_lt (by omega) hj)]

theorem element_congr {cell : Nat} (ha : ∀ place < s.m * s.k, a'[place]? = a[place]?)
    (hb : ∀ place < s.k * s.n, b'[place]? = b[place]?) (h : cell < s.m * s.n) :
    element s a' b' cell = element s a b cell :=
  sumTo_congr ha hb (row_lt h) (col_lt h) (Nat.le_refl _)

end Congruence

/-! ## The checked form -/

theorem multiplyChecked_of_fits {s : Shape} {a b c : Buffer} (h : s.Fits a.size b.size c.size) :
    (multiplyChecked s a b c).answer.result = .ok () ∧
      (multiplyChecked s a b c).c = product s a b c := by
  unfold multiplyChecked
  rw [Shape.validate_eq_ok_iff_fits.2 h]
  dsimp only
  rw [multiply_eq h]
  exact ⟨rfl, rfl⟩

theorem multiplyChecked_of_refused {s : Shape} {a b c : Buffer} {e : MatmulError}
    (h : s.validate a.size b.size c.size = .error e) :
    multiplyChecked s a b c = { answer := .refuse e, c } := by
  rw [multiplyChecked, h]

/-- A checked call gives an answer, whatever the buffers. -/
theorem multiplyChecked_answers (s : Shape) (a b c : Buffer) (f : Fault) :
    (multiplyChecked s a b c).answer.result ≠ .error (.halted f) := by
  by_cases h : s.Fits a.size b.size c.size
  · simp [(multiplyChecked_of_fits h).1]
  · obtain ⟨e, -, hv⟩ := Shape.exists_refusal h
    simp [multiplyChecked_of_refused hv]

/-- A checked call never stops. It succeeds exactly when the buffers are long enough, and then C
holds the product and is as it was past it. Otherwise C is as it was, and the error is that of the
first check that fails. -/
theorem checked_call_exact (s : Shape) (a b old : Buffer) (ha : a.size < wordLimit)
    (hb : b.size < wordLimit) (hc : old.size < wordLimit) :
    let call := multiplyChecked s a b old
    (∀ f, call.answer.result ≠ .error (.halted f)) ∧
      (call.answer.result = .ok () ↔
        s.m * s.k ≤ a.size ∧ s.k * s.n ≤ b.size ∧ s.m * s.n ≤ old.size) ∧
      (call.answer.result = .ok () →
        (∀ i < s.m, ∀ j < s.n, call.c[i * s.n + j]? = some (dot s a b i j)) ∧
          call.c.size = old.size ∧ ∀ i, s.m * s.n ≤ i → call.c[i]? = old[i]?) ∧
      (call.answer.result ≠ .ok () → call.c = old ∧
        ∃ e, Shape.refusal (s.checks a.size b.size old.size) = some e ∧
          call.answer.result = .error (.refused e)) := by
  intro call
  rw [← Shape.fits_iff ha hb hc]
  refine ⟨multiplyChecked_answers s a b old, ?_⟩
  by_cases h : s.Fits a.size b.size old.size
  · obtain ⟨hr, hp⟩ : call.answer.result = .ok () ∧ call.c = product s a b old :=
      multiplyChecked_of_fits h
    rw [hr, hp]
    refine ⟨by simp [h], fun _ => ⟨?_, size_product .., fun i => product_past⟩, by simp⟩
    exact fun i hi j hj => product_place hi hj h.c_le
  · obtain ⟨e, he, hv⟩ := Shape.exists_refusal h
    have hr : call = { answer := .refuse e, c := old } := multiplyChecked_of_refused hv
    rw [hr]
    exact ⟨by simp [h], by simp, fun _ => ⟨rfl, e, he, rfl⟩⟩

/-- One row times one column into a buffer of two elements. -/
theorem checked_call_row_times_column :
    let call := multiplyChecked ⟨1, 1, 2⟩ #[.one, .one] #[.one, .one] #[.nan, .nan]
    call.answer.result = .ok () ∧ call.c[0]? = some ⟨0x40000000⟩ ∧ call.c[1]? = some .nan := by
  obtain ⟨-, hiff, hok, -⟩ := checked_call_exact ⟨1, 1, 2⟩ #[.one, .one] #[.one, .one]
    #[.nan, .nan] (by decide) (by decide) (by decide)
  have hr := hiff.2 (by decide)
  obtain ⟨hdot, -, hpast⟩ := hok hr
  have hsum : dot ⟨1, 1, 2⟩ #[.one, .one] #[.one, .one] 0 0 = ⟨0x40000000⟩ := by decide
  exact ⟨hr, by simpa [hsum] using hdot 0 (by decide) 0 (by decide), hpast 1 (by decide)⟩

end DenseMatmul.Reference
