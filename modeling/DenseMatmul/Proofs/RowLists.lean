import DenseMatmul.Proofs.Workspaces
/-!
# Lists of rows

A matrix made of a list of rows holds them one after another, and a row that is not as long as the first
is refused. Rows of one length leave their elements in order, whatever follows them
(`appendRows_append`): at the end of the list that is the matrix, and otherwise the loop stops at the
first row of another length. Row `i` of the matrix is what came in as row `i`, and taking a matrix apart,
into its elements or into its rows, and putting it together again gives it back.
-/

namespace DenseMatmul.Matrix

variable {x y : Matrix} {cols i : Nat} {rows before after rest : List Buffer} {row data : Buffer}

/-- The length of the first row, which the others must have too. -/
def width (rows : List Buffer) : Nat := (rows.head?.map Array.size).getD 0

def Uniform (cols : Nat) (rows : List Buffer) : Prop := ∀ row ∈ rows, row.size = cols

/-- The elements of all rows, in order. -/
def joined (rows : List Buffer) : Buffer := (rows.flatMap Array.toList).toArray

/-! ## Joining rows -/

theorem joined_cons : joined (row :: rest) = row ++ joined rest := by
  simp [joined]

theorem joined_append : joined (before ++ rest) = joined before ++ joined rest := by
  simp [joined]

theorem size_joined (h : Uniform cols rows) : (joined rows).size = rows.length * cols := by
  induction rows with
  | nil => simp [joined]
  | cons row rest ih =>
    obtain ⟨hrow, hrest⟩ := List.forall_mem_cons.1 h
    rw [joined_cons, Array.size_append, hrow, ih hrest, List.length_cons, Nat.succ_mul, Nat.add_comm]

/-- A row stands behind as many elements as the rows before it have. -/
theorem extract_joined (h : Uniform cols before) (hrow : row.size = cols) :
    (joined (before ++ row :: after)).extract (before.length * cols) (before.length * cols + cols) =
      row := by
  refine Array.ext_getElem? fun j => ?_
  rw [joined_append, joined_cons, Buffer.getElem?_extract]
  by_cases hj : j < cols
  · rw [if_pos (by omega), Array.getElem?_append_right (by rw [size_joined h]; omega), size_joined h,
      Nat.add_sub_cancel_left, Array.getElem?_append_left (by omega)]
  · rw [if_neg (by omega), Array.getElem?_eq_none (by omega)]

/-- The rows before and after one of them. -/
theorem split_at (h : rows[i]? = some row) :
    ∃ before after, rows = before ++ row :: after ∧ before.length = i := by
  obtain ⟨hi, rfl⟩ := List.getElem?_eq_some_iff.1 h
  refine ⟨rows.take i, rows.drop (i + 1), ?_, List.length_take_of_le (Nat.le_of_lt hi)⟩
  rw [← List.drop_eq_getElem_cons hi, List.take_append_drop]

/-! ## The loop -/

theorem appendRows_append (h : Uniform cols before) : appendRows cols (before ++ rest) i data =
    appendRows cols rest (i + before.length) (data ++ joined before) := by
  induction before generalizing i data with
  | nil => simp [joined]
  | cons row before ih =>
    obtain ⟨hrow, hbefore⟩ := List.forall_mem_cons.1 h
    rw [List.cons_append, appendRows, if_pos hrow, ih hbefore, joined_cons, Array.append_assoc,
      List.length_cons, Nat.add_right_comm, Nat.add_assoc]

/-- Without a ragged row the loop comes to the end of the list. -/
theorem appendRows_of_uniform (h : Uniform cols rows) :
    appendRows cols rows i data = .ok (data ++ joined rows) := by
  have hall : appendRows cols (rows ++ []) i data = .ok (data ++ joined rows) := appendRows_append h
  rwa [List.append_nil] at hall

/-- At a ragged row the loop stops. -/
theorem appendRows_of_ragged (h : Uniform cols before) (hrow : row.size ≠ cols) :
    appendRows cols (before ++ row :: after) i data =
      .error (.invalidArgument (.raggedRow (i + before.length) row.size cols)) := by
  rw [appendRows_append h, appendRows, if_neg hrow]

theorem exists_first_ragged (h : ¬ Uniform cols rows) :
    ∃ before row after, rows = before ++ row :: after ∧ Uniform cols before ∧ row.size ≠ cols := by
  induction rows with
  | nil => exact absurd (List.forall_mem_nil _) h
  | cons row rest ih =>
    by_cases hrow : row.size = cols
    · have hrest : ¬ Uniform cols rest := fun hrest => h (List.forall_mem_cons.2 ⟨hrow, hrest⟩)
      obtain ⟨before, ragged, after, rfl, hbefore, hragged⟩ := ih hrest
      exact ⟨row :: before, ragged, after, rfl, List.forall_mem_cons.2 ⟨hrow, hbefore⟩, hragged⟩
    · exact ⟨[], row, rest, rfl, List.forall_mem_nil _, hrow⟩

/-! ## Matrices of rows -/

theorem ofRows_of_uniform (h : Uniform (width rows) rows) :
    ofRows rows = .ok ⟨joined rows, rows.length, width rows⟩ := by
  have hdata : appendRows (width rows) rows 0 #[] = .ok (#[] ++ joined rows) := appendRows_of_uniform h
  rw [Array.empty_append] at hdata
  unfold ofRows
  dsimp only
  rw [← width, hdata]
  rfl

theorem ofRows_of_ragged (h : Uniform (width rows) before) (hsplit : rows = before ++ row :: after)
    (hrow : row.size ≠ width rows) : ofRows rows =
      .error (.invalidArgument (.raggedRow before.length row.size (width rows))) := by
  have hstop : appendRows (width rows) (before ++ row :: after) 0 #[] =
      .error (.invalidArgument (.raggedRow (0 + before.length) row.size (width rows))) :=
    appendRows_of_ragged h hrow
  rw [← hsplit, Nat.zero_add] at hstop
  unfold ofRows
  dsimp only
  rw [← width, hstop]
  rfl

theorem ofRows_eq_ok_iff : ofRows rows = .ok x ↔
    Uniform (width rows) rows ∧ x = ⟨joined rows, rows.length, width rows⟩ := by
  constructor
  · intro hx
    by_cases h : Uniform (width rows) rows
    · rw [ofRows_of_uniform h] at hx
      exact ⟨h, (Except.ok.inj hx).symm⟩
    · obtain ⟨before, row, after, hsplit, hbefore, hrow⟩ := exists_first_ragged h
      rw [ofRows_of_ragged hbefore hsplit hrow] at hx
      cases hx
  · rintro ⟨h, rfl⟩
    exact ofRows_of_uniform h

/-- A row of the matrix is the row that came in. -/
theorem row_ofRows (hrows : RowsExist rows) (hx : ofRows rows = .ok x) (hi : rows[i]? = some row) :
    x.row i = .ok row := by
  have hwf := wellFormed_ofRows hrows hx
  obtain ⟨h, rfl⟩ := ofRows_eq_ok_iff.1 hx
  have hlt : i < rows.length := (List.getElem?_eq_some_iff.1 hi).1
  have hdata := row_of_lt hwf hlt
  obtain ⟨before, after, hsplit, rfl⟩ := split_at hi
  have hbefore : Uniform (width rows) before := fun r hr => h r (by simp [hsplit, hr])
  have hrow : row.size = width rows := h row (List.mem_of_getElem? hi)
  have hextract : (joined (before ++ row :: after)).extract (before.length * width rows)
      (before.length * width rows + width rows) = row := extract_joined hbefore hrow
  rw [← hsplit] at hextract
  exact hdata.trans (congrArg Except.ok hextract)

/-! ## Taking a matrix apart -/

theorem ext_row (hx : x.WellFormed) (hy : y.WellFormed) (hrows : x.rows = y.rows)
    (hcols : x.cols = y.cols) (h : ∀ i < x.rows, x.row i = y.row i) : x = y := by
  refine ext_place hx hy hrows hcols fun i hi j hj => ?_
  have hsame := h i hi
  rw [row_of_lt hx hi, row_of_lt hy (hrows ▸ hi), ← hcols] at hsame
  have hplace := congrArg (·[j]?) (Except.ok.inj hsame)
  simpa only [Buffer.getElem?_extract, Nat.add_lt_add_iff_left, if_pos hj] using hplace

/-- The rows of a matrix. -/
def rowList (x : Matrix) : List Buffer :=
  (List.range x.rows).map fun i => x.data.extract (i * x.cols) (i * x.cols + x.cols)

theorem mapM_row (h : x.WellFormed) : (List.range x.rows).mapM x.row = .ok x.rowList :=
  mapM_eq_ok fun _ hi => row_of_lt h (List.mem_range.1 hi)

theorem uniform_rowList (h : x.WellFormed) : Uniform x.cols x.rowList := by
  intro row hrow
  obtain ⟨i, hi, rfl⟩ := List.mem_map.1 hrow
  have hend : i * x.cols + x.cols ≤ x.rows * x.cols := View.place_end_le (List.mem_range.1 hi)
  have hsize := h.size
  rw [Array.size_extract]
  omega

theorem width_rowList (h : x.WellFormed) (hpos : 0 < x.rows) : width x.rowList = x.cols := by
  obtain ⟨row, rest, hlist⟩ : ∃ row rest, x.rowList = row :: rest :=
    List.exists_cons_of_length_pos (by simpa [rowList] using hpos)
  have hrow := uniform_rowList h row (by rw [hlist]; exact List.mem_cons_self)
  rw [hlist]
  exact hrow

/-- The rows of a matrix that has some make the matrix again. -/
theorem ofRows_rowList (h : x.WellFormed) (hpos : 0 < x.rows) : ofRows x.rowList = .ok x := by
  have hwidth := width_rowList h hpos
  have hlength : x.rowList.length = x.rows := by simp [rowList]
  have hexist : RowsExist x.rowList := by
    change x.rowList.length * width x.rowList < wordLimit
    rw [hlength, hwidth]
    exact h.word
  have hmade := ofRows_of_uniform (hwidth.symm ▸ uniform_rowList h)
  rw [hmade]
  refine congrArg Except.ok (ext_row (wellFormed_ofRows hexist hmade) h hlength hwidth ?_)
  intro i hi
  rw [hlength] at hi
  have hin : x.rowList[i]? = some (x.data.extract (i * x.cols) (i * x.cols + x.cols)) := by
    simp [rowList, hi]
  rw [row_ofRows hexist hmade hin, row_of_lt h hi]

/-- A list of rows makes a matrix exactly if they are all as long as the first, and else the refusal names
the first row that is not, its length and the first one's. The matrix has the rows that came in, and its
elements are theirs in order. A reachable matrix is made again of its elements, and of its rows if it has
any. -/
theorem row_lists_exact :
    (∀ rows : List Buffer, RowsExist rows →
      ((∃ x, ofRows rows = .ok x) ↔ Uniform (width rows) rows) ∧
      (¬ Uniform (width rows) rows → ∃ i row, rows[i]? = some row ∧ row.size ≠ width rows ∧
        (∀ j < i, ∀ earlier, rows[j]? = some earlier → earlier.size = width rows) ∧
        ofRows rows = .error (.invalidArgument (.raggedRow i row.size (width rows)))) ∧
      ∀ x, ofRows rows = .ok x → x.rows = rows.length ∧ x.cols = width rows ∧
        (∀ i row, rows[i]? = some row → x.row i = .ok row) ∧
        x.data.toList = rows.flatMap Array.toList) ∧
    ∀ x : Matrix, x.Reachable → ofData x.data x.rows x.cols = .ok x ∧
      (0 < x.rows → ∃ rows, (List.range x.rows).mapM x.row = .ok rows ∧ ofRows rows = .ok x) := by
  constructor
  · intro rows hrows
    refine ⟨⟨?_, ?_⟩, ?_, ?_⟩
    · rintro ⟨x, hx⟩
      exact (ofRows_eq_ok_iff.1 hx).1
    · intro h
      exact ⟨_, ofRows_of_uniform h⟩
    · intro h
      obtain ⟨before, row, after, hsplit, hbefore, hrow⟩ := exists_first_ragged h
      refine ⟨before.length, row, by simp [hsplit], hrow, ?_, ofRows_of_ragged hbefore hsplit hrow⟩
      intro j hj earlier hearlier
      rw [hsplit, List.getElem?_append_left hj] at hearlier
      exact hbefore earlier (List.mem_of_getElem? hearlier)
    · intro x hx
      have hrow : ∀ i row, rows[i]? = some row → x.row i = .ok row := fun _ _ => row_ofRows hrows hx
      obtain ⟨-, rfl⟩ := ofRows_eq_ok_iff.1 hx
      exact ⟨rfl, rfl, hrow, rfl⟩
  · intro x hx
    rw [reachable_iff_wellFormed] at hx
    exact ⟨ofData_of_wellFormed hx, fun hpos => ⟨x.rowList, mapM_row hx, ofRows_rowList hx hpos⟩⟩

/-- Two rows of two, a list whose second row is short, and three rows without elements. -/
theorem row_lists_exact_two_by_two :
    let even : List Buffer := [#[.zero, .one], #[.nan, .infinity]]
    let ragged : List Buffer := [#[.zero, .one], #[.nan], #[.one, .one]]
    let narrow : Matrix := ⟨#[], 3, 0⟩
    (RowsExist even ∧ ∃ x, ofRows even = .ok x ∧ x.row 1 = .ok #[.nan, .infinity] ∧
      x.data.toList = [.zero, .one, .nan, .infinity]) ∧
    (RowsExist ragged ∧ ¬ Uniform 2 ragged ∧ ∃ i row, ragged[i]? = some row ∧ row.size ≠ 2 ∧
      ofRows ragged = .error (.invalidArgument (.raggedRow i row.size 2))) ∧
    narrow.Reachable ∧ 0 < narrow.rows ∧ ofData #[] 3 0 = .ok narrow ∧
      ∃ rows, (List.range 3).mapM narrow.row = .ok rows ∧ ofRows rows = .ok narrow := by
  intro even ragged narrow
  have heven : RowsExist even := show 2 * 2 < wordLimit by decide
  have hragged : RowsExist ragged := show 3 * 2 < wordLimit by decide
  have hodd : ¬ Uniform 2 ragged := fun h => absurd (h #[.nan] (by decide)) (by decide)
  have hnarrow : narrow.Reachable := reachable_iff_wellFormed.2 ⟨rfl, by decide⟩
  obtain ⟨⟨-, hmade⟩, -, hexact⟩ := row_lists_exact.1 even heven
  obtain ⟨x, hx⟩ := hmade (show ∀ row ∈ even, row.size = 2 by decide)
  obtain ⟨-, -, hrow, hdata⟩ := hexact x hx
  obtain ⟨i, row, hin, hsize, -, hrefused⟩ := (row_lists_exact.1 ragged hragged).2.1 hodd
  obtain ⟨hdataAgain, hrowsAgain⟩ := row_lists_exact.2 narrow hnarrow
  exact ⟨⟨heven, x, hx, hrow 1 _ rfl, hdata⟩, ⟨hragged, hodd, i, row, hin, hsize, hrefused⟩, hnarrow,
    by decide, hdataAgain, hrowsAgain (by decide)⟩

end DenseMatmul.Matrix
