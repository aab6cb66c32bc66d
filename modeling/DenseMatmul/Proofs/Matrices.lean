import DenseMatmul.Matrix
import DenseMatmul.Proofs.Views
/-!
# Well-formed matrices

A matrix is well formed if it has as many elements as its rows and columns say, and if that many can be
counted in a word. Every way to make a matrix keeps to this, each for a reason of its own: a length that
is checked, a loop that runs so many times, or a kernel that cannot change the size of its output.

On a well-formed matrix the check of row and column is all that is needed: a place that passes it is in
the buffer, and counting it out is no overflow.
-/

namespace DenseMatmul.Matrix

open Reference (place_lt place_div place_mod)

structure WellFormed (x : Matrix) : Prop where
  size : x.data.size = x.rows * x.cols
  word : x.rows * x.cols < wordLimit

variable {x y : Matrix} {row col : Nat}

theorem WellFormed.place_lt_size (h : x.WellFormed) (hrow : row < x.rows) (hcol : col < x.cols) :
    row * x.cols + col < x.data.size := by
  rw [h.size]
  exact place_lt hrow hcol

/-! ## Making matrices -/

/-- What is made once the elements are counted is made of a count that is a word. -/
theorem counted_of_eq_ok {rows cols : Nat} {make : Nat → Except MatmulError Matrix}
    (h : elementCount rows cols >>= make = .ok x) :
    rows * cols < wordLimit ∧ make (rows * cols) = .ok x := by
  cases hlength : elementCount rows cols with
  | error e => rw [hlength] at h; cases h
  | ok length =>
    obtain ⟨hword, rfl⟩ := elementCount_eq_ok_iff.1 hlength
    rw [hlength] at h
    exact ⟨hword, h⟩

theorem wellFormed_ofData {data : Buffer} {rows cols : Nat} (h : ofData data rows cols = .ok x) :
    x.WellFormed := by
  obtain ⟨hword, hmake⟩ := counted_of_eq_ok h
  split at hmake
  · obtain rfl := Except.ok.inj hmake
    exact ⟨‹_›, hword⟩
  · cases hmake

theorem wellFormed_zeros {rows cols : Nat} (h : zeros rows cols = .ok x) : x.WellFormed := by
  obtain ⟨hword, hmake⟩ := counted_of_eq_ok h
  obtain rfl := Except.ok.inj hmake
  exact ⟨Array.size_replicate, hword⟩

theorem setDiagonal_succ (n count : Nat) (data : Buffer) : setDiagonal n (count + 1) data =
    (setDiagonal n count data).setIfInBounds (count * n + count) .one := by
  rw [setDiagonal, List.range_succ, List.foldl_append]
  rfl

@[simp] theorem size_setDiagonal (n count : Nat) (data : Buffer) :
    (setDiagonal n count data).size = data.size := by
  induction count with
  | zero => rfl
  | succ count ih => rw [setDiagonal_succ, Array.size_setIfInBounds, ih]

theorem wellFormed_identity {n : Nat} (h : identity n = .ok x) : x.WellFormed := by
  unfold identity at h
  cases hzeros : zeros n n with
  | error e => rw [hzeros] at h; cases h
  | ok y =>
    have hy := wellFormed_zeros hzeros
    rw [hzeros] at h
    obtain rfl := Except.ok.inj h
    exact ⟨(size_setDiagonal ..).trans hy.size, hy.word⟩

theorem size_appendRows {cols : Nat} {rows : List Buffer} {i : Nat} {data out : Buffer}
    (h : appendRows cols rows i data = .ok out) : out.size = data.size + rows.length * cols := by
  induction rows generalizing i data with
  | nil =>
    obtain rfl := Except.ok.inj h
    simp
  | cons row rest ih =>
    unfold appendRows at h
    split at h
    · rename_i hrow
      rw [ih h, Array.size_append, hrow, List.length_cons, Nat.succ_mul]
      omega
    · cases h

/-- The rows could be in memory: their elements can be counted in a word. -/
def RowsExist (rows : List Buffer) : Prop :=
  rows.length * (rows.head?.map Array.size).getD 0 < wordLimit

theorem wellFormed_ofRows {rows : List Buffer} (hrows : RowsExist rows) (h : ofRows rows = .ok x) :
    x.WellFormed := by
  unfold ofRows at h
  dsimp only at h
  cases hdata : appendRows ((rows.head?.map Array.size).getD 0) rows 0 #[] with
  | error e => rw [hdata] at h; cases h
  | ok data =>
    rw [hdata] at h
    obtain rfl := Except.ok.inj h
    refine ⟨?_, hrows⟩
    rw [size_appendRows hdata, Array.size_empty, Nat.zero_add]

/-! ## Products -/

/-- A kernel has no say in the size of its output. -/
theorem size_kernel_multiply {kernel : Kernel} {s : Shape} {a b data : Buffer}
    (h : (kernel.multiply s a b).result = .ok data) :
    s.m * s.n < wordLimit ∧ data.size = s.m * s.n := by
  simp only [Kernel.multiply, Logged.bind_eq_ok_iff, Logged.result_ofExcept,
    Logged.mapError_eq_ok_iff] at h
  obtain ⟨length, hlength, -, -, hdata⟩ := h
  obtain ⟨hword, rfl⟩ := elementCount_eq_ok_iff.1 hlength
  obtain rfl := Except.ok.inj hdata
  exact ⟨hword, by rw [kernel.size_c, Array.size_replicate]⟩

theorem wellFormed_multiply {kernel : Kernel} {z : Matrix}
    (h : (multiply kernel x y).result = .ok z) : z.WellFormed := by
  unfold multiply at h
  split at h
  · obtain ⟨data, hdata, hz⟩ := Logged.bind_eq_ok_iff.1 h
    obtain ⟨hword, hsize⟩ := size_kernel_multiply hdata
    obtain rfl := Except.ok.inj hz
    exact ⟨hsize, hword⟩
  · cases h

/-! ## Reading and writing -/

/-- The whole of a well-formed matrix is a well-formed view. -/
theorem WellFormed.view (h : x.WellFormed) : x.view.WellFormed :=
  ⟨h.size, h.word, Nat.le_of_eq h.size.symm⟩

theorem get_of_inside (h : x.WellFormed) (hrow : row < x.rows) (hcol : col < x.cols) :
    ∃ value, x.data[row * x.cols + col]? = some value ∧ x.get row col = .ok value :=
  View.get_of_inside h.view hrow hcol

theorem get_of_outside (h : ¬ (row < x.rows ∧ col < x.cols)) :
    x.get row col = .error (.indexOutOfRange row col) :=
  View.get_of_outside h

/-- A row is its stretch of the elements. -/
theorem row_of_lt (h : x.WellFormed) (hrow : row < x.rows) :
    x.row row = .ok (x.data.extract (row * x.cols) (row * x.cols + x.cols)) :=
  View.row_of_lt h.view hrow

/-- A write in range replaces one element of the buffer. -/
theorem modify_of_inside (h : x.WellFormed) (hrow : row < x.rows) (hcol : col < x.cols)
    (f : Single → Single) :
    ∃ old, x.data[row * x.cols + col]? = some old ∧ x.through (·.modify row col f) =
      .ok { x with data := x.data.setIfInBounds (row * x.cols + col) (f old) } := by
  obtain ⟨old, hold, hmodify⟩ := View.modify_of_inside h.view hrow hcol f
  refine ⟨old, hold, ?_⟩
  simp only [through, hmodify, bind, Except.bind]
  rfl

theorem modify_of_outside (h : ¬ (row < x.rows ∧ col < x.cols)) (f : Single → Single) :
    x.through (·.modify row col f) = .error (.indexOutOfRange row col) := by
  have hmodify : x.view.modify row col f = .error (.indexOutOfRange row col) :=
    View.modify_of_outside h f
  simp only [through, hmodify, bind, Except.bind]

theorem wellFormed_modify {f : Single → Single} (h : x.WellFormed)
    (hy : x.through (·.modify row col f) = .ok y) : y.WellFormed := by
  by_cases hinside : row < x.rows ∧ col < x.cols
  · obtain ⟨old, -, hmodify⟩ := modify_of_inside h hinside.1 hinside.2 f
    rw [hmodify] at hy
    obtain rfl := Except.ok.inj hy
    exact ⟨Array.size_setIfInBounds.trans h.size, h.word⟩
  · rw [modify_of_outside hinside] at hy
    cases hy

/-- Matrices are the same if they have the same extents and the same element in every place. -/
theorem ext_place (hx : x.WellFormed) (hy : y.WellFormed) (hrows : x.rows = y.rows)
    (hcols : x.cols = y.cols)
    (h : ∀ i < x.rows, ∀ j < x.cols, x.data[i * x.cols + j]? = y.data[i * x.cols + j]?) : x = y := by
  have hdata : x.data = y.data := by
    refine Array.ext_getElem? fun place => ?_
    rcases Nat.lt_or_ge place (x.rows * x.cols) with hlt | hge
    · have hplace := h (place / x.cols) (Nat.div_lt_of_lt_mul (by rwa [Nat.mul_comm]))
        (place % x.cols) (Nat.mod_lt _ (Nat.pos_of_lt_mul_left hlt))
      rwa [Nat.div_add_mod'] at hplace
    · have hsize : y.data.size = x.rows * x.cols := by rw [hy.size, hrows, hcols]
      rw [Array.getElem?_eq_none (Nat.le_trans (Nat.le_of_eq hx.size) hge),
        Array.getElem?_eq_none (Nat.le_trans (Nat.le_of_eq hsize) hge)]
  cases x
  cases y
  simp_all

/-! ## Loops -/

/-- A loop over a range of numbers whose state after `p` turns is `g p`. -/
theorem foldlM_range {ε α : Type} {f : α → Nat → Except ε α} {g : Nat → α} {count : Nat}
    (h : ∀ p < count, f (g p) p = .ok (g (p + 1))) :
    (List.range count).foldlM f (g 0) = .ok (g count) := by
  induction count with
  | zero => rfl
  | succ count ih =>
    rw [List.range_succ, List.foldlM_append, ih fun p hp => h p (by omega)]
    change List.foldlM f (g count) [count] = _
    rw [List.foldlM_cons, h count (Nat.lt_succ_self _)]
    rfl

theorem mapM_eq_ok {ε α β : Type} {f : α → Except ε β} {g : α → β} {xs : List α}
    (h : ∀ a ∈ xs, f a = .ok (g a)) : xs.mapM f = .ok (xs.map g) := by
  induction xs with
  | nil => rfl
  | cons a rest ih =>
    rw [List.mapM_cons, h a (by simp), ih fun b hb => h b (List.mem_cons_of_mem _ hb)]
    rfl

/-! ## The transpose -/

/-- The transpose of a well-formed matrix always exists, and has rows for columns. -/
theorem transpose_eq (h : x.WellFormed) : ∃ y, x.transpose = .ok y ∧ y.rows = x.cols ∧
    y.cols = x.rows ∧ y.data.size = x.cols * x.rows ∧
    ∀ i j, i < x.cols → j < x.rows → y.data[i * x.rows + j]? = x.data[j * x.cols + i]? := by
  let element (cell : Nat) : Single := (x.data[cell % x.rows * x.cols + cell / x.rows]?).getD .zero
  -- Row and column of a cell change places, so each cell looks up a place that the matrix has.
  have hread : ∀ cell ∈ List.range (x.cols * x.rows), (do
      x.data.read (← offset (cell % x.rows) (cell / x.rows) x.cols)) = .ok (element cell) := by
    intro cell hcell
    have hlt : cell < x.cols * x.rows := List.mem_range.1 hcell
    have hplace : cell % x.rows * x.cols + cell / x.rows < x.rows * x.cols :=
      place_lt (Nat.mod_lt _ (Nat.pos_of_lt_mul_left hlt))
        (Nat.div_lt_of_lt_mul (by rwa [Nat.mul_comm]))
    rw [offset_eq_ok_iff.2 ⟨Nat.lt_trans hplace h.word, rfl⟩]
    refine Buffer.read_eq_ok_iff.2 ?_
    simp only [element, Array.getElem?_eq_getElem (h.size ▸ hplace), Option.getD_some]
  refine ⟨{ data := ((List.range (x.cols * x.rows)).map element).toArray, rows := x.cols, cols := x.rows },
    ?_, rfl, rfl, by simp, ?_⟩
  · simp only [transpose, mapM_eq_ok hread]
    rfl
  · intro i j hi hj
    have hplace : i * x.rows + j < x.cols * x.rows := place_lt hi hj
    have hsource : j * x.cols + i < x.data.size := h.size ▸ place_lt hj hi
    simp only [List.getElem?_toArray, List.getElem?_map, List.getElem?_range hplace, Option.map_some,
      element, place_mod hj, place_div hj, Array.getElem?_eq_getElem hsource, Option.getD_some]

theorem wellFormed_transpose (h : x.WellFormed) (hy : x.transpose = .ok y) : y.WellFormed := by
  obtain ⟨y', hy', hrows, hcols, hsize, -⟩ := transpose_eq h
  obtain rfl := Except.ok.inj (hy'.symm.trans hy)
  rw [← hrows, ← hcols] at hsize
  refine ⟨hsize, ?_⟩
  rw [hrows, hcols, Nat.mul_comm]
  exact h.word

end DenseMatmul.Matrix
