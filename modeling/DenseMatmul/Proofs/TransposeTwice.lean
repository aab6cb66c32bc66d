import DenseMatmul.Proofs.Transposed
import DenseMatmul.Proofs.Workspaces
/-!
# Transposing twice

The transpose of a matrix looks each element up, the transpose of a buffer stores each element where it
belongs. Element `(i, j)` goes to place `(j, i)` either way, so what both leave is the same
(`transpose_prefix`), and doing it twice is doing nothing (`transpose_transpose`). For buffers that is all
that is left to say, since only the matrix at their start counts.
-/

namespace DenseMatmul

namespace Matrix

variable {x xT : Matrix} {i j : Nat}

theorem get_transpose (h : x.WellFormed) (hxT : x.transpose = .ok xT) (hi : i < x.rows)
    (hj : j < x.cols) : ∃ value, x.get i j = .ok value ∧ xT.get j i = .ok value := by
  obtain ⟨y, hy, hrows, hcols, -, hplaces⟩ := transpose_eq h
  obtain rfl := Except.ok.inj (hy.symm.trans hxT)
  obtain ⟨value, hvalue, hget⟩ := get_of_inside h hi hj
  obtain ⟨value', hvalue', hget'⟩ :=
    get_of_inside (wellFormed_transpose h hy) (by rwa [hrows]) (by rwa [hcols])
  rw [hcols, hplaces j i hj hi, hvalue] at hvalue'
  obtain rfl := Option.some.inj hvalue'
  exact ⟨value, hget, hget'⟩

theorem transpose_transpose (h : x.WellFormed) (hxT : x.transpose = .ok xT) :
    xT.transpose = .ok x := by
  have hT := wellFormed_transpose h hxT
  obtain ⟨y, hy, hrows, hcols, -, hplaces⟩ := transpose_eq h
  obtain rfl := Except.ok.inj (hy.symm.trans hxT)
  obtain ⟨z, hz, hzRows, hzCols, -, hzPlaces⟩ := transpose_eq hT
  rw [hcols] at hzRows hzPlaces
  rw [hrows] at hzCols hzPlaces
  rw [hz]
  refine congrArg Except.ok (ext_place (wellFormed_transpose hT hz) h hzRows hzCols ?_)
  intro i hi j hj
  rw [hzRows] at hi
  rw [hzCols] at hj ⊢
  rw [hzPlaces i j hi hj, hplaces j i hj hi]

end Matrix

/-! ## Buffers -/

namespace Buffer

variable {src : Buffer} {rows cols : Nat}

/-- The matrix that a buffer starts with. -/
def leading (src : Buffer) (rows cols : Nat) : Matrix :=
  ⟨src.extract 0 (rows * cols), rows, cols⟩

theorem wellFormed_leading (hw : rows * cols < wordLimit) (hb : rows * cols ≤ src.size) :
    (src.leading rows cols).WellFormed :=
  ⟨by simp [leading, hb], hw⟩

/-- Storing and looking up leave the same transpose. -/
theorem transpose_leading (hw : rows * cols < wordLimit) (hb : rows * cols ≤ src.size) :
    (src.leading rows cols).transpose = .ok ⟨Transpose.flipped src rows cols, cols, rows⟩ := by
  have h := wellFormed_leading hw hb
  obtain ⟨y, hy, hrows, hcols, -, hplaces⟩ := Matrix.transpose_eq h
  have hflipped : (Matrix.mk (Transpose.flipped src rows cols) cols rows).WellFormed :=
    ⟨Transpose.size_flipped_comm, by rwa [Nat.mul_comm]⟩
  rw [hy]
  refine congrArg Except.ok (Matrix.ext_place (Matrix.wellFormed_transpose h hy) hflipped hrows hcols ?_)
  intro j hj i hi
  rw [hrows] at hj
  rw [hcols] at hi ⊢
  have hplace : i * cols + j < rows * cols := Reference.place_lt hi hj
  have hsource : (src.leading rows cols).data[i * cols + j]? = some src[i * cols + j]! := by
    rw [leading, getElem?_extract, Nat.zero_add, if_pos hplace, getElem!_pos src _ (by omega)]
    exact Array.getElem?_eq_getElem _
  exact (hplaces j i hj hi).trans (hsource.trans (Transpose.flipped_place hi hj).symm)

theorem flipped_congr {other : Buffer} (hw : rows * cols < wordLimit) (hb : rows * cols ≤ src.size)
    (hother : rows * cols ≤ other.size)
    (h : other.extract 0 (rows * cols) = src.extract 0 (rows * cols)) :
    Transpose.flipped other rows cols = Transpose.flipped src rows cols := by
  have hsame : other.leading rows cols = src.leading rows cols := by rw [leading, leading, h]
  have htranspose := transpose_leading hw hother
  rw [hsame, transpose_leading hw hb] at htranspose
  exact (congrArg Matrix.data (Except.ok.inj htranspose)).symm

theorem flipped_flipped (hw : rows * cols < wordLimit) (hb : rows * cols ≤ src.size) :
    Transpose.flipped (Transpose.flipped src rows cols) cols rows = src.extract 0 (rows * cols) := by
  have hback : ((Transpose.flipped src rows cols).leading cols rows).transpose =
      .ok ⟨Transpose.flipped (Transpose.flipped src rows cols) cols rows, rows, cols⟩ :=
    transpose_leading (by rwa [Nat.mul_comm]) (Nat.le_of_eq Transpose.size_flipped_comm.symm)
  have hwhole : (Transpose.flipped src rows cols).leading cols rows =
      ⟨Transpose.flipped src rows cols, cols, rows⟩ := by
    rw [leading, ← Transpose.size_flipped_comm, Array.extract_size]
  rw [hwhole, Matrix.transpose_transpose (wellFormed_leading hw hb) (transpose_leading hw hb)] at hback
  exact (congrArg Matrix.data (Except.ok.inj hback)).symm

end Buffer

/-- The transpose of a reachable matrix always exists. It has rows for columns and element `(i, j)` at
`(j, i)`, and its own transpose is the matrix again. The transpose of a buffer exists where the buffer is
long enough: it is that of the matrix at its start, whatever comes after, and transposing it back gives
that start. -/
theorem transposes_exact :
    (∀ x : Matrix, x.Reachable → ∃ xT, x.transpose = .ok xT ∧ xT.rows = x.cols ∧ xT.cols = x.rows ∧
      (∀ i < x.rows, ∀ j < x.cols, ∃ value, x.get i j = .ok value ∧ xT.get j i = .ok value) ∧
      xT.transpose = .ok x) ∧
    ∀ (src : Buffer) (rows cols : Nat), rows * cols < wordLimit → rows * cols ≤ src.size →
      ∃ flipped : Buffer, src.transpose rows cols = .ok flipped ∧
        (src.leading rows cols).transpose = .ok ⟨flipped, cols, rows⟩ ∧
        (∀ other : Buffer, other.extract 0 (rows * cols) = src.extract 0 (rows * cols) →
          other.transpose rows cols = .ok flipped) ∧
        flipped.transpose cols rows = .ok (src.extract 0 (rows * cols)) := by
  constructor
  · intro x hx
    rw [Matrix.reachable_iff_wellFormed] at hx
    obtain ⟨xT, hxT, hrows, hcols, -⟩ := Matrix.transpose_eq hx
    exact ⟨xT, hxT, hrows, hcols, fun i hi j hj => Matrix.get_transpose hx hxT hi hj,
      Matrix.transpose_transpose hx hxT⟩
  · intro src rows cols hw hb
    refine ⟨Transpose.flipped src rows cols, Buffer.transpose_eq hw hb, Buffer.transpose_leading hw hb,
      ?_, ?_⟩
    · intro other hsame
      have hother : rows * cols ≤ other.size := by
        have hsize := congrArg Array.size hsame
        simp only [Array.size_extract] at hsize
        omega
      rw [Buffer.transpose_eq hw hother, Buffer.flipped_congr hw hb hother hsame]
    · rw [Buffer.transpose_eq (by rwa [Nat.mul_comm]) (Nat.le_of_eq Transpose.size_flipped_comm.symm),
        Buffer.flipped_flipped hw hb]

/-- A matrix without columns that has all the rows there can be, and two buffers that go on differently
after two rows of three. -/
theorem transposes_exact_empty_and_long :
    let tall : Matrix := ⟨#[], 0xffffffffffffffff, 0⟩
    let wide : Matrix := ⟨#[], 0, 0xffffffffffffffff⟩
    let src : Buffer := #[.zero, .one, .nan, .infinity, .one, .zero, .nan]
    let other : Buffer := #[.zero, .one, .nan, .infinity, .one, .zero, .one, .one]
    let flipped : Buffer := #[.zero, .infinity, .one, .one, .nan, .zero]
    tall.Reachable ∧ tall.transpose = .ok wide ∧ wide.transpose = .ok tall ∧
      src.transpose 2 3 = .ok flipped ∧ other.transpose 2 3 = .ok flipped ∧
      flipped.transpose 3 2 = .ok #[.zero, .one, .nan, .infinity, .one, .zero] := by
  intro tall wide src other flipped
  have htall : tall.Reachable := Matrix.reachable_iff_wellFormed.2 ⟨rfl, by decide⟩
  obtain ⟨xT, hxT, -, -, -, hback⟩ := transposes_exact.1 tall htall
  obtain ⟨out, hout, -, hother, htwice⟩ := transposes_exact.2 src 2 3 (by decide) (by decide)
  have hwide : tall.transpose = .ok wide := by
    simp only [Matrix.transpose, tall, wide, Nat.zero_mul, List.range_zero, List.mapM_nil]
    rfl
  have hflipped : src.transpose 2 3 = .ok flipped :=
    (Buffer.transpose_eq (by decide) (by decide)).trans (congrArg Except.ok (by decide))
  obtain rfl := Except.ok.inj (hxT.symm.trans hwide)
  obtain rfl := Except.ok.inj (hout.symm.trans hflipped)
  exact ⟨htall, hwide, hback, hflipped, hother other rfl, htwice⟩

end DenseMatmul
