import Mathlib.Data.List.OfFn
import DenseMatmul.Conformance.TransposedProduct
import DenseMatmul.Proofs.Matrices
/-!
# The product by way of transposes, element by element

The loops of the product in double precision run over whole rows of sums. After `p` rows of the right
operand each sum holds its first `p` products, and in the end each cell of the result its own sum.
The operands are transposed before and the result after, so cell `(i, j)` of the result is a sum over
row `i` of A and column `j` of B after all (`multiply_eq`), with the factors the other way round.
-/

namespace DenseMatmul

open Reference (place_lt place_div place_mod row_lt col_lt)

theorem Buffer.read_of_lt {b : Buffer} {place : Nat} (h : place < b.size) :
    b.read place = .ok b[place]! := by
  rw [read_eq_ok_iff, getElem!_pos b place h]
  exact Array.getElem?_eq_getElem h

/-! ## Transposition -/

namespace Transpose

/-- The element that belongs into a place of the transpose. -/
def element (b : Buffer) (rows cols place : Nat) : Single :=
  b[place % rows * cols + place / rows]!

/-- The transpose of the `rows` by `cols` matrix that `b` starts with. -/
def flipped (b : Buffer) (rows cols : Nat) : Buffer :=
  Step.fill (element b rows cols) (rows * cols) (.replicate (rows * cols) .zero)

variable {b : Buffer} {rows cols cell i j : Nat}

@[simp] theorem size_flipped (b : Buffer) (rows cols : Nat) :
    (flipped b rows cols).size = rows * cols := by
  simp [flipped]

theorem size_flipped_comm : (flipped b rows cols).size = cols * rows :=
  (size_flipped b rows cols).trans (Nat.mul_comm rows cols)

theorem flipped_place (hi : i < rows) (hj : j < cols) :
    (flipped b rows cols)[j * rows + i]? = some b[i * cols + j]! := by
  have hplace : j * rows + i < rows * cols := Nat.mul_comm rows cols ▸ place_lt hj hi
  rw [flipped, Step.fill_of_lt hplace (by simp), element, place_mod hi, place_div hi]

theorem element_place (hrow : cell / cols < rows) :
    element b rows cols (cell % cols * rows + cell / cols) = b[cell]! := by
  rw [element, place_mod hrow, place_div hrow, Nat.div_add_mod']

theorem step_eq (hw : rows * cols < wordLimit) (hb : rows * cols ≤ b.size)
    (h : cell < rows * cols) :
    step b rows cols cell =
      Step.write (element b rows cols) (cell % cols * rows + cell / cols) := by
  have hrow : cell / cols < rows := row_lt (s := ⟨rows, cols, 0⟩) h
  have hcol : cell % cols < cols := col_lt (s := ⟨rows, cols, 0⟩) h
  have hplace : cell / cols * cols + cell % cols = cell := Nat.div_add_mod' cell cols
  have htarget : cell % cols * rows + cell / cols < cols * rows := place_lt hcol hrow
  rw [Nat.mul_comm cols rows] at htarget
  have hsource : offset (cell / cols) (cell % cols) cols = .ok cell :=
    offset_eq_ok_iff.2 ⟨by omega, hplace⟩
  have hread : b.read cell = .ok b[cell]! := Buffer.read_of_lt (by omega)
  have hstore : offset (cell % cols) (cell / cols) rows = .ok (cell % cols * rows + cell / cols) :=
    offset_eq_ok_iff.2 ⟨by omega, rfl⟩
  simp only [step, Step.write, element_place hrow, hsource, hstore, bind, Except.bind, hread]
  rfl

theorem steps_eq (hw : rows * cols < wordLimit) (hb : rows * cols ≤ b.size) :
    steps b rows cols =
      ((List.range (rows * cols)).map fun cell => cell % cols * rows + cell / cols).map
        (Step.write (element b rows cols)) := by
  rw [steps, List.map_map]
  exact List.map_congr_left fun cell hcell => step_eq hw hb (List.mem_range.1 hcell)

end Transpose

theorem Buffer.transpose_eq {b : Buffer} {rows cols : Nat} (hw : rows * cols < wordLimit)
    (hb : rows * cols ≤ b.size) :
    b.transpose rows cols = .ok (Transpose.flipped b rows cols) := by
  let places := (List.range (rows * cols)).map fun cell => cell % cols * rows + cell / cols
  have hinside : ∀ place ∈ places, place < rows * cols := by
    intro place hplace
    obtain ⟨cell, hcell, rfl⟩ := List.mem_map.1 hplace
    have hlt := List.mem_range.1 hcell
    rw [Nat.mul_comm rows]
    exact place_lt (col_lt (s := ⟨rows, cols, 0⟩) hlt) (row_lt (s := ⟨rows, cols, 0⟩) hlt)
  -- Every place is the one of some cell, so none keeps the zero it starts with.
  have hevery : ∀ place < rows * cols, place ∈ places := by
    intro place hplace
    rw [Nat.mul_comm] at hplace
    have hcol : place / rows < cols := row_lt (s := ⟨cols, rows, 0⟩) hplace
    have hrow : place % rows < rows := col_lt (s := ⟨cols, rows, 0⟩) hplace
    refine List.mem_map.2 ⟨place % rows * cols + place / rows,
      List.mem_range.2 (place_lt hrow hcol), ?_⟩
    rw [place_mod hcol, place_div hcol, Nat.div_add_mod']
  rw [transpose, if_neg (Nat.not_le.2 hw), Transpose.steps_eq hw hb,
    Step.run_map_write _ places _ (by simpa only [Array.size_replicate] using hinside)]
  refine congrArg Except.ok (Step.eq_fill (by simp) (fun i hi => ?_) fun i hi => ?_)
  · simp [hi, hevery i hi]
  · simp [Nat.not_lt.2 hi]

namespace Conformance.TransposedProduct

/-! ## Rows of sums -/

variable {left right : Buffer} {height width depth i : Nat}

/-- The sum for element `(i, j)` of the product of `left` and `right` after the first `p` products. -/
def sumTo (left right : Buffer) (width depth i j : Nat) : Nat → Float
  | 0 => 0
  | p + 1 => sumTo left right width depth i j p +
      left[i * depth + p]!.toDouble * right[p * width + j]!.toDouble

/-- The row of sums after the first `p` rows of `right`. -/
def sumsTo (left right : Buffer) (width depth i p : Nat) : Array Float :=
  .ofFn fun j : Fin width => sumTo left right width depth i j p

theorem addRow_eq {p : Nat} (hi : i < height) (hp : p < depth)
    (hlw : height * depth < wordLimit) (hrw : depth * width < wordLimit)
    (hl : height * depth ≤ left.size) (hr : depth * width ≤ right.size) :
    addRow left right width depth i (sumsTo left right width depth i p) p =
      .ok (sumsTo left right width depth i (p + 1)) := by
  have hplace : i * depth + p < height * depth := place_lt hi hp
  have hend : p * width + width ≤ depth * width := by
    rw [← Nat.succ_mul]
    exact Nat.mul_le_mul_right _ hp
  have hfactor : offset i p depth = .ok (i * depth + p) := offset_eq_ok_iff.2 ⟨by omega, rfl⟩
  have hread : left.read (i * depth + p) = .ok left[i * depth + p]! :=
    Buffer.read_of_lt (by omega)
  have hstart : offset p 0 width = .ok (p * width) := offset_eq_ok_iff.2 ⟨by omega, rfl⟩
  have hslice : right.slice (p * width) (p * width + width) =
      .ok (right.extract (p * width) (p * width + width)) :=
    Buffer.slice_eq_ok_iff.2 ⟨by omega, by omega, rfl⟩
  simp only [addRow, hfactor, hread, hstart, hslice, bind, Except.bind]
  refine congrArg Except.ok (Array.ext (by simp [sumsTo]; omega) fun j hj hj' => ?_)
  have hjw : j < width := by simpa [sumsTo] using hj'
  have hright := getElem!_pos right (p * width + j) (by omega)
  simp [sumsTo, sumTo, hright]

theorem row_eq (hi : i < height) (hlw : height * depth < wordLimit)
    (hrw : depth * width < wordLimit) (hl : height * depth ≤ left.size)
    (hr : depth * width ≤ right.size) :
    row left right width depth i = .ok (sumsTo left right width depth i depth) := by
  have hstart : Array.replicate width (0 : Float) = sumsTo left right width depth i 0 :=
    Array.ext (by simp [sumsTo]) fun j hj hj' => by simp [sumsTo, sumTo]
  rw [row, hstart]
  exact Matrix.foldlM_range fun p hp => addRow_eq hi hp hlw hrw hl hr

/-- Rows of one width, one after the other. -/
theorem flatten_rows {α : Type} (element : Nat → Nat → α) (height width : Nat) :
    ((List.range height).map fun i => Array.ofFn fun j : Fin width => element i j).toArray.flatten =
      Array.ofFn fun cell : Fin (height * width) => element (cell / width) (cell % width) := by
  apply Array.toList_inj.1
  rw [Array.toList_flatten, Array.toList_ofFn, List.ofFn_mul]
  congr 1
  refine List.ext_getElem (by simp) fun i hi hi' => ?_
  simp only [List.getElem_map, List.getElem_range, List.getElem_ofFn, Array.toList_ofFn]
  congr 1
  funext j
  rw [place_div j.isLt, place_mod j.isLt]

/-- The product of two operands, cell by cell. -/
theorem product_eq (hw : height * width < wordLimit) (hlw : height * depth < wordLimit)
    (hrw : depth * width < wordLimit) (hl : height * depth ≤ left.size)
    (hr : depth * width ≤ right.size) :
    product left right height width depth = .ok (.ofFn fun cell : Fin (height * width) =>
      sumTo left right width depth (cell / width) (cell % width) depth) := by
  have hrows := Matrix.mapM_eq_ok (f := row left right width depth) fun i hi =>
    row_eq (List.mem_range.1 hi) hlw hrw hl hr
  rw [← flatten_rows fun i j => sumTo left right width depth i j depth]
  simp only [product, if_neg (Nat.not_le.2 hw), hrows]
  rfl

/-! ## The whole product -/

variable {s : Shape} {a b : Buffer}

/-- The sum for element `(i, j)` of C after the first `p` products, in double precision. -/
def entryTo (s : Shape) (a b : Buffer) (i j : Nat) : Nat → Float
  | 0 => 0
  | p + 1 => entryTo s a b i j p + b[p * s.n + j]!.toDouble * a[i * s.k + p]!.toDouble

/-- Row `i` of A times column `j` of B, narrowed. -/
def entry (s : Shape) (a b : Buffer) (i j : Nat) : Single := Single.ofDouble (entryTo s a b i j s.k)

theorem validate_of_fits {cSize : Nat} (h : s.Fits a.size b.size cSize) :
    validate s a.size b.size = .ok () := by
  have ha : s.aLen = .ok (s.m * s.k) := elementCount_eq_ok_iff.2 ⟨h.a_word, rfl⟩
  have hb : s.bLen = .ok (s.k * s.n) := elementCount_eq_ok_iff.2 ⟨h.b_word, rfl⟩
  have hla := h.a_le
  have hlb := h.b_le
  simp [validate, ha, hb, checkLength, bind, Except.bind, Nat.not_lt.2 hla, Nat.not_lt.2 hlb]

/-- The loops over the transposed operands read the elements of A and B. -/
theorem sumTo_flipped {i j p : Nat} (hi : i < s.m) (hj : j < s.n) (hp : p ≤ s.k) :
    sumTo (Transpose.flipped b s.k s.n) (Transpose.flipped a s.m s.k) s.m s.k j i p =
      entryTo s a b i j p := by
  induction p with
  | zero => rfl
  | succ p ih =>
    have hb : (Transpose.flipped b s.k s.n)[j * s.k + p]! = b[p * s.n + j]! := by
      rw [getElem!_def, Transpose.flipped_place (by omega) hj]
    have ha : (Transpose.flipped a s.m s.k)[p * s.m + i]! = a[i * s.k + p]! := by
      rw [getElem!_def, Transpose.flipped_place hi (by omega)]
    rw [sumTo, entryTo, ih (by omega), ha, hb]

theorem extract_place {b : Buffer} {length place : Nat} (h : place < length) :
    (b.extract 0 length)[place]! = b[place]! := by
  have hplace : (b.extract 0 length)[place]? = b[place]? := by simp [Array.getElem?_extract, h]
  rw [getElem!_def, getElem!_def, hplace]

/-- Only the elements of the matrices are read of the operands. -/
theorem entryTo_extract {i j p : Nat} (hi : i < s.m) (hj : j < s.n) (hp : p ≤ s.k) :
    entryTo s (a.extract 0 (s.m * s.k)) (b.extract 0 (s.k * s.n)) i j p = entryTo s a b i j p := by
  induction p with
  | zero => rfl
  | succ p ih =>
    rw [entryTo, entryTo, ih (by omega), extract_place (place_lt hi (by omega)),
      extract_place (place_lt (by omega) hj)]

/-- The narrowed sums in the order in which they are made, which is that of the transpose of C. -/
def narrowed (s : Shape) (a b : Buffer) : Buffer :=
  .ofFn fun cell : Fin (s.n * s.m) => entry s a b (cell % s.m) (cell / s.m)

theorem narrowed_place {i j : Nat} (hi : i < s.m) (hj : j < s.n) :
    (narrowed s a b)[j * s.m + i]! = entry s a b i j := by
  have hplace : j * s.m + i < s.n * s.m := place_lt hj hi
  rw [getElem!_pos _ _ (by simpa [narrowed] using hplace)]
  simp only [narrowed, Array.getElem_ofFn, place_mod hi, place_div hi]

theorem narrowed_eq : (Array.ofFn fun cell : Fin (s.n * s.m) =>
    sumTo (Transpose.flipped (b.extract 0 (s.k * s.n)) s.k s.n)
      (Transpose.flipped (a.extract 0 (s.m * s.k)) s.m s.k) s.m s.k (cell / s.m) (cell % s.m)
        s.k).map Single.ofDouble = narrowed s a b := by
  refine Array.ext (by simp [narrowed]) fun cell hcell hcell' => ?_
  have hlt : cell < s.n * s.m := by simpa [narrowed] using hcell'
  have hi : cell % s.m < s.m := col_lt (s := ⟨s.n, s.m, 0⟩) hlt
  have hj : cell / s.m < s.n := row_lt (s := ⟨s.n, s.m, 0⟩) hlt
  simp only [Array.getElem_map, Array.getElem_ofFn, narrowed, entry,
    sumTo_flipped hi hj (Nat.le_refl s.k), entryTo_extract hi hj (Nat.le_refl s.k)]

theorem transposed_eq {cSize : Nat} (h : s.Fits a.size b.size cSize) :
    transposed s a b = .ok (Transpose.flipped (narrowed s a b) s.n s.m) := by
  let aPart : Buffer := a.extract 0 (s.m * s.k)
  let bPart : Buffer := b.extract 0 (s.k * s.n)
  have hword : s.n * s.m < wordLimit := Nat.mul_comm s.m s.n ▸ h.c_word
  have ha : a.slice 0 (s.m * s.k) = .ok aPart :=
    Buffer.slice_eq_ok_iff.2 ⟨Nat.zero_le _, h.a_le, rfl⟩
  have hb : b.slice 0 (s.k * s.n) = .ok bPart :=
    Buffer.slice_eq_ok_iff.2 ⟨Nat.zero_le _, h.b_le, rfl⟩
  have haT : aPart.transpose s.m s.k = .ok (Transpose.flipped aPart s.m s.k) :=
    Buffer.transpose_eq h.a_word (by simp [aPart, h.a_le])
  have hbT : bPart.transpose s.k s.n = .ok (Transpose.flipped bPart s.k s.n) :=
    Buffer.transpose_eq h.b_word (by simp [bPart, h.b_le])
  have hproduct : product (Transpose.flipped bPart s.k s.n) (Transpose.flipped aPart s.m s.k)
      s.n s.m s.k = .ok _ :=
    product_eq hword (by rw [Nat.mul_comm]; exact h.b_word) (by rw [Nat.mul_comm]; exact h.a_word)
      (by simp [Nat.mul_comm]) (by simp [Nat.mul_comm])
  have hback : (narrowed s a b).transpose s.n s.m = .ok (Transpose.flipped (narrowed s a b) s.n s.m) :=
    Buffer.transpose_eq hword (by simp [narrowed])
  simp only [transposed, ha, hb, haT, hbT, hproduct, bind, Except.bind]
  exact (congrArg (Buffer.transpose · s.n s.m) narrowed_eq).trans hback

/-- A product whose operands are long enough is answered, and each cell holds its own sum. -/
theorem multiply_eq {cSize : Nat} (h : s.Fits a.size b.size cSize) :
    (multiply s a b).result = .ok (Transpose.flipped (narrowed s a b) s.n s.m) := by
  simp only [multiply, Logged.result_bind, validate_of_fits h, transposed_eq h]
  rfl

theorem product_place {i j : Nat} (hi : i < s.m) (hj : j < s.n) :
    (Transpose.flipped (narrowed s a b) s.n s.m)[i * s.n + j]? = some (entry s a b i j) := by
  rw [Transpose.flipped_place hj hi, narrowed_place hi hj]

end Conformance.TransposedProduct

end DenseMatmul
