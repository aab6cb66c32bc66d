import DenseMatmul.Matrix.Access
import DenseMatmul.Proofs.Reference
/-!
# Histories of a view

A view is laid over the start of a buffer row by row. Whatever is done through it, each element of the
buffer becomes what the accesses leave at its own row and column, and past the view nothing changes
(`after_eq`). So what is read at a place is what was last written there, however often others were
written in between.

Nothing past the view is seen either: two buffers that begin alike give the same readings
(`readings_congr`).
-/

namespace DenseMatmul

/-! ## What an access writes -/

namespace Access

/-- The row and column of the one element that an access is for, if it is for one. -/
def place? : Access → Option (Nat × Nat)
  | .get i j | .set i j _ | .add i j _ => some (i, j)
  | .elements | .row _ | .fill _ => none

/-- What an access leaves in a row and column that held `old`. -/
def leaves (access : Access) (row col : Nat) (old : Single) : Single :=
  match access with
  | .set i j value => if i = row ∧ j = col then value else old
  | .add i j value => if i = row ∧ j = col then old + value else old
  | .fill value => value
  | .elements | .get _ _ | .row _ => old

/-- What stands in a row and column after a list of accesses: the last value written there, and before
any write the one there was. -/
def held (history : List Access) (row col : Nat) (initial : Single) : Single :=
  history.foldl (fun old access => access.leaves row col old) initial

/-- An access for one element leaves the others. -/
theorem leaves_of_elsewhere {access : Access} {row col i j : Nat}
    (hplace : access.place? = some (i, j)) (h : ¬ (i = row ∧ j = col)) (old : Single) :
    access.leaves row col old = old := by
  cases access with
  | elements | get _ _ | row _ => rfl
  | fill _ => cases hplace
  | set _ _ _ | add _ _ _ =>
    cases hplace
    exact if_neg h

end Access

/-! ## Buffers that begin alike -/

namespace Buffer

variable {b other : Buffer} {start stop : Nat}

theorem getElem?_extract (b : Buffer) (start stop i : Nat) :
    (b.extract start stop)[i]? = if start + i < stop then b[start + i]? else none := by
  rw [Array.getElem?_extract]
  by_cases hstop : start + i < stop
  · rw [if_pos hstop]
    split
    · rfl
    · rw [Array.getElem?_eq_none (by omega)]
  · rw [if_neg hstop, if_neg (by omega)]

theorem extract_congr (h : ∀ i < stop, other[i]? = b[i]?) :
    other.extract start stop = b.extract start stop := by
  refine Array.ext_getElem? fun i => ?_
  rw [getElem?_extract, getElem?_extract]
  split
  · exact h _ ‹_›
  · rfl

theorem slice_congr (h : ∀ i < stop, other[i]? = b[i]?) (hb : stop ≤ b.size)
    (hother : stop ≤ other.size) : other.slice start stop = b.slice start stop := by
  simp only [slice, hb, hother, and_true, extract_congr h]

end Buffer

namespace View

open Reference (place_lt place_div place_mod row_lt col_lt)

variable {v w : View} {row col : Nat}

/-- The view has its rows and columns without gaps, their number is a word, and the buffer holds them. -/
structure WellFormed (v : View) : Prop where
  extent_eq : v.extent = v.rows * v.cols
  word : v.rows * v.cols < wordLimit
  le_size : v.rows * v.cols ≤ v.buffer.size

theorem ofBuffer_eq_ok_iff {buffer : Buffer} {rows cols : Nat} :
    ofBuffer buffer rows cols = .ok v ↔ (rows * cols < wordLimit ∧ rows * cols ≤ buffer.size) ∧
      v = ⟨buffer, rows * cols, rows, cols⟩ := by
  unfold ofBuffer elementCount checkLength
  by_cases hword : rows * cols < wordLimit
  · by_cases hsize : buffer.size < rows * cols
    · simp [hword, hsize, Nat.not_le.2 hsize, bind, Except.bind]
    · simp [hword, hsize, bind, Except.bind, pure, Except.pure, Nat.not_lt.1 hsize, eq_comm]
  · simp [hword, bind, Except.bind]

theorem wellFormed_ofBuffer {buffer : Buffer} {rows cols : Nat}
    (h : ofBuffer buffer rows cols = .ok v) : v.WellFormed := by
  obtain ⟨⟨hword, hsize⟩, rfl⟩ := ofBuffer_eq_ok_iff.1 h
  exact ⟨rfl, hword, hsize⟩

/-! ## One element -/

theorem locate_of_inside (h : v.WellFormed) (hrow : row < v.rows) (hcol : col < v.cols) :
    v.locate row col = .ok (row * v.cols + col) := by
  have hplace := place_lt hrow hcol
  have hoffset : offset row col v.cols = .ok (row * v.cols + col) :=
    offset_eq_ok_iff.2 ⟨Nat.lt_trans hplace h.word, rfl⟩
  simp only [locate, hrow, hcol, and_self, if_true, hoffset, bind, Except.bind, h.extent_eq, hplace]
  rfl

theorem locate_of_outside (h : ¬ (row < v.rows ∧ col < v.cols)) :
    v.locate row col = .error (.indexOutOfRange row col) := by
  unfold locate
  exact if_neg h

theorem read_of_inside (h : v.WellFormed) (hrow : row < v.rows) (hcol : col < v.cols) :
    ∃ value, v.buffer[row * v.cols + col]? = some value ∧
      v.buffer.read (row * v.cols + col) = .ok value := by
  have hread := Array.getElem?_eq_getElem (Nat.lt_of_lt_of_le (place_lt hrow hcol) h.le_size)
  exact ⟨_, hread, Buffer.read_eq_ok_iff.2 hread⟩

theorem get_of_inside (h : v.WellFormed) (hrow : row < v.rows) (hcol : col < v.cols) :
    ∃ value, v.buffer[row * v.cols + col]? = some value ∧ v.get row col = .ok value := by
  obtain ⟨value, hvalue, hread⟩ := read_of_inside h hrow hcol
  refine ⟨value, hvalue, ?_⟩
  simp only [get, locate_of_inside h hrow hcol, bind, Except.bind]
  exact hread

theorem get_of_outside (h : ¬ (row < v.rows ∧ col < v.cols)) :
    v.get row col = .error (.indexOutOfRange row col) := by
  simp only [get, locate_of_outside h, bind, Except.bind]

/-- A write in range replaces one element of the buffer. -/
theorem modify_of_inside (h : v.WellFormed) (hrow : row < v.rows) (hcol : col < v.cols)
    (f : Single → Single) :
    ∃ old, v.buffer[row * v.cols + col]? = some old ∧ v.modify row col f =
      .ok { v with buffer := v.buffer.setIfInBounds (row * v.cols + col) (f old) } := by
  obtain ⟨old, hold, hread⟩ := read_of_inside h hrow hcol
  refine ⟨old, hold, ?_⟩
  simp only [modify, locate_of_inside h hrow hcol, bind, Except.bind, hread]
  rfl

theorem modify_of_outside (h : ¬ (row < v.rows ∧ col < v.cols)) (f : Single → Single) :
    v.modify row col f = .error (.indexOutOfRange row col) := by
  simp only [modify, locate_of_outside h, bind, Except.bind]

/-- An element that is handed out to be changed is as good as read and set. -/
theorem modify_eq_set (h : v.WellFormed) (hrow : row < v.rows) (hcol : col < v.cols)
    (f : Single → Single) :
    ∃ old, v.get row col = .ok old ∧ v.modify row col f = v.set row col (f old) := by
  obtain ⟨old, hold, hread⟩ := read_of_inside h hrow hcol
  refine ⟨old, ?_, ?_⟩
  · simp only [get, locate_of_inside h hrow hcol, bind, Except.bind, hread]
  · simp only [set, modify, locate_of_inside h hrow hcol, bind, Except.bind, hread]

/-! ## One row -/

theorem place_end_le {rows cols : Nat} (hrow : row < rows) : row * cols + cols ≤ rows * cols := by
  rw [← Nat.succ_mul]
  exact Nat.mul_le_mul_right _ hrow

theorem row_of_lt (h : v.WellFormed) (hrow : row < v.rows) :
    v.row row = .ok (v.buffer.extract (row * v.cols) (row * v.cols + v.cols)) := by
  have hend : row * v.cols + v.cols ≤ v.rows * v.cols := place_end_le hrow
  have hword := h.word
  have hsize := h.le_size
  have hstart : offset row 0 v.cols = .ok (row * v.cols) := offset_eq_ok_iff.2 ⟨by omega, rfl⟩
  have hstop : offset row v.cols v.cols = .ok (row * v.cols + v.cols) :=
    offset_eq_ok_iff.2 ⟨by omega, rfl⟩
  have hinside : row * v.cols + v.cols ≤ v.extent := by rw [h.extent_eq]; exact hend
  simp only [View.row, hstart, hstop, bind, Except.bind, if_pos hinside]
  exact Buffer.slice_eq_ok_iff.2 ⟨by omega, by omega, rfl⟩

/-- A row is its elements in order. -/
theorem row_place (h : v.WellFormed) (hrow : row < v.rows) :
    ∃ data, v.row row = .ok data ∧ data.size = v.cols ∧
      ∀ col < v.cols, ∃ x, v.get row col = .ok x ∧ data[col]? = some x := by
  have hend : row * v.cols + v.cols ≤ v.rows * v.cols := place_end_le hrow
  have hsize := h.le_size
  refine ⟨_, row_of_lt h hrow, ?_, fun col hcol => ?_⟩
  · rw [Array.size_extract]
    omega
  · obtain ⟨x, hx, hget⟩ := get_of_inside h hrow hcol
    refine ⟨x, hget, ?_⟩
    rw [Buffer.getElem?_extract, if_pos (by omega), hx]

/-- Past the last row a row has nothing to give: it is empty without columns, and else a fault. -/
theorem row_of_le (h : v.WellFormed) (hrow : v.rows ≤ row) :
    (v.cols = 0 → v.row row = .ok #[]) ∧ (0 < v.cols → ∃ f, v.row row = .error f) := by
  constructor
  · intro hcols
    have hplace : ∀ col, col = 0 → offset row col v.cols = .ok 0 := by
      rintro _ rfl
      rw [hcols]
      exact offset_eq_ok_iff.2 ⟨Nat.succ_pos _, rfl⟩
    simp only [View.row, hplace 0 rfl, hplace v.cols hcols, bind, Except.bind, Nat.zero_le, if_true]
    exact Buffer.slice_eq_ok_iff.2 ⟨Nat.le_refl 0, Nat.zero_le _, by simp⟩
  · intro hcols
    have hpast := Nat.mul_le_mul_right v.cols hrow
    cases hstart : offset row 0 v.cols with
    | error f => exact ⟨f, by simp only [View.row, hstart, bind, Except.bind]⟩
    | ok start =>
      cases hstop : offset row v.cols v.cols with
      | error f => exact ⟨f, by simp only [View.row, hstart, hstop, bind, Except.bind]⟩
      | ok stop =>
        obtain ⟨-, rfl⟩ := offset_eq_ok_iff.1 hstop
        refine ⟨.pastEnd, ?_⟩
        simp only [View.row, hstart, hstop, bind, Except.bind]
        exact if_neg (by rw [h.extent_eq]; omega)

/-! ## One access -/

/-- The buffer with each element of the view changed by its own row and column. -/
def rewritten (v : View) (leaves : Nat → Nat → Single → Single) : Buffer :=
  v.buffer.mapIdx fun i x => if i < v.extent then leaves (i / v.cols) (i % v.cols) x else x

theorem getElem?_rewritten (v : View) (leaves : Nat → Nat → Single → Single) (i : Nat) :
    (v.rewritten leaves)[i]? =
      v.buffer[i]?.map fun x => if i < v.extent then leaves (i / v.cols) (i % v.cols) x else x :=
  Array.getElem?_mapIdx

theorem rewritten_of_unchanged {leaves : Nat → Nat → Single → Single}
    (h : ∀ i < v.extent, ∀ x, leaves (i / v.cols) (i % v.cols) x = x) :
    v.rewritten leaves = v.buffer := by
  refine Array.ext_getElem? fun i => ?_
  rw [getElem?_rewritten]
  by_cases hin : i < v.extent
  · simp [hin, h i hin]
  · simp [hin]

/-- A write in range is seen at its own row and column alone, since no other place is the same. -/
theorem rewritten_of_inside {access : Access} {old : Single} (h : v.WellFormed)
    (hrow : row < v.rows) (hcol : col < v.cols) (hold : v.buffer[row * v.cols + col]? = some old)
    (hplace : access.place? = some (row, col)) :
    v.rewritten access.leaves =
      v.buffer.setIfInBounds (row * v.cols + col) (access.leaves row col old) := by
  obtain ⟨hsize, hget⟩ := Array.getElem?_eq_some_iff.1 hold
  have hextent : row * v.cols + col < v.extent := by
    rw [h.extent_eq]
    exact place_lt hrow hcol
  refine Array.ext_getElem? fun i => ?_
  rw [getElem?_rewritten, Array.getElem?_setIfInBounds]
  by_cases hi : row * v.cols + col = i
  · subst hi
    simp [hextent, hsize, hget, place_div hcol, place_mod hcol]
  · have helsewhere : ¬ (row = i / v.cols ∧ col = i % v.cols) := by
      rintro ⟨rfl, rfl⟩
      exact hi (Nat.div_add_mod' i v.cols)
    simp [hi, Access.leaves_of_elsewhere hplace helsewhere]

/-- The view after an access. -/
def afterAccess (v : View) (access : Access) : View :=
  { v with buffer := v.rewritten access.leaves }

/-- What an access reads. A write reads all elements afterwards. -/
def reading (v : View) (access : Access) : Except Fault Reading :=
  match access with
  | .elements => .ok (.elements v.elements)
  | .get i j => (v.get i j).map .value
  | .row i => (v.row i).map .row
  | .set i j _ | .add i j _ =>
    if i < v.rows ∧ j < v.cols then .ok (.elements (v.afterAccess access).elements)
    else .error (.indexOutOfRange i j)
  | .fill _ => .ok (.elements (v.afterAccess access).elements)

theorem afterAccess_of_unchanged {access : Access}
    (h : ∀ i < v.extent, ∀ x, access.leaves (i / v.cols) (i % v.cols) x = x) :
    v.afterAccess access = v := by
  rw [afterAccess, rewritten_of_unchanged h]

theorem afterAccess_of_outside {access : Access} (h : v.WellFormed)
    (hplace : access.place? = some (row, col)) (hout : ¬ (row < v.rows ∧ col < v.cols)) :
    v.afterAccess access = v := by
  refine afterAccess_of_unchanged fun i hi x => ?_
  rw [h.extent_eq] at hi
  have hrow : i / v.cols < v.rows := row_lt (s := ⟨v.rows, v.cols, 0⟩) hi
  have hcol : i % v.cols < v.cols := col_lt (s := ⟨v.rows, v.cols, 0⟩) hi
  refine Access.leaves_of_elsewhere hplace ?_ x
  rintro ⟨rfl, rfl⟩
  exact hout ⟨hrow, hcol⟩

theorem step_of_outside {access : Access} (hplace : access.place? = some (row, col))
    (h : ¬ (row < v.rows ∧ col < v.cols)) :
    v.step access = (.error (.indexOutOfRange row col), v) := by
  unfold step
  cases access with
  | elements | row _ | fill _ => cases hplace
  | get _ _ =>
    cases hplace
    simp only [run, get_of_outside h, bind, Except.bind]
  | set _ _ _ =>
    cases hplace
    simp only [run, set, modify_of_outside h, Functor.map, Except.map]
  | add _ _ _ =>
    cases hplace
    simp only [run, add, modify_of_outside h, Functor.map, Except.map]

theorem step_of_inside {access : Access} {f : Single → Single} (h : v.WellFormed)
    (hin : row < v.rows ∧ col < v.cols) (hplace : access.place? = some (row, col))
    (hf : ∀ old, access.leaves row col old = f old)
    (hrun : v.run access = written <$> v.modify row col f) :
    v.step access =
      (.ok (.elements (v.afterAccess access).elements), v.afterAccess access) := by
  obtain ⟨old, hold, hmodify⟩ := modify_of_inside h hin.1 hin.2 f
  unfold step
  rw [hrun, hmodify, ← hf, ← rewritten_of_inside h hin.1 hin.2 hold hplace]
  rfl

/-- All that an access does. -/
theorem step_eq (h : v.WellFormed) (access : Access) :
    v.step access = (v.reading access, v.afterAccess access) := by
  cases access with
  | elements =>
    rw [afterAccess_of_unchanged fun _ _ _ => rfl]
    rfl
  | get i j =>
    rw [afterAccess_of_unchanged fun _ _ _ => rfl]
    simp only [step, run, reading]
    cases v.get i j <;> rfl
  | row i =>
    rw [afterAccess_of_unchanged fun _ _ _ => rfl]
    simp only [step, run, reading]
    cases v.row i <;> rfl
  | set i j value =>
    by_cases hin : i < v.rows ∧ j < v.cols
    · have hleaves : ∀ old, (Access.set i j value).leaves i j old = value :=
        fun _ => if_pos ⟨rfl, rfl⟩
      rw [step_of_inside h hin rfl hleaves rfl, reading, if_pos hin]
    · rw [step_of_outside rfl hin, afterAccess_of_outside h rfl hin, reading, if_neg hin]
  | add i j value =>
    by_cases hin : i < v.rows ∧ j < v.cols
    · have hleaves : ∀ old, (Access.add i j value).leaves i j old = old + value :=
        fun _ => if_pos ⟨rfl, rfl⟩
      rw [step_of_inside h hin rfl hleaves rfl, reading, if_pos hin]
    · rw [step_of_outside rfl hin, afterAccess_of_outside h rfl hin, reading, if_neg hin]
  | fill value => rfl

/-- An access in range always succeeds. -/
theorem reading_of_inside {access : Access} (h : v.WellFormed)
    (hplace : access.place? = some (row, col)) (hin : row < v.rows ∧ col < v.cols) :
    ∃ r, v.reading access = .ok r := by
  cases access with
  | elements | row _ | fill _ => cases hplace
  | get _ _ =>
    cases hplace
    obtain ⟨value, -, hget⟩ := get_of_inside h hin.1 hin.2
    exact ⟨.value value, by rw [reading, hget]; rfl⟩
  | set _ _ _ | add _ _ _ =>
    cases hplace
    exact ⟨_, if_pos hin⟩

/-! ## Histories -/

/-- The view after a list of accesses. -/
def after (v : View) (history : List Access) : View :=
  history.foldl (fun v access => (v.step access).2) v

/-- What a list of accesses reads, one after the other. -/
def readings (v : View) : List Access → List (Except Fault Reading)
  | [] => []
  | access :: rest => (v.step access).1 :: (v.step access).2.readings rest

@[simp] theorem size_rewritten (v : View) (leaves : Nat → Nat → Single → Single) :
    (v.rewritten leaves).size = v.buffer.size :=
  Array.size_mapIdx

theorem WellFormed.afterAccess (h : v.WellFormed) (access : Access) :
    (v.afterAccess access).WellFormed :=
  ⟨h.extent_eq, h.word, by rw [View.afterAccess, size_rewritten]; exact h.le_size⟩

/-- Each element is what the accesses leave at its own row and column. -/
theorem after_eq (h : v.WellFormed) (history : List Access) :
    v.after history = { v with buffer := v.rewritten (Access.held history) } := by
  induction history generalizing v with
  | nil => rw [rewritten_of_unchanged fun _ _ _ => rfl]; rfl
  | cons access rest ih =>
    have htwice : (v.afterAccess access).rewritten (Access.held rest) =
        v.rewritten (Access.held (access :: rest)) := by
      refine Array.ext_getElem? fun i => ?_
      simp only [getElem?_rewritten, afterAccess, Option.map_map]
      congr 1
      funext x
      by_cases hi : i < v.extent <;> simp [hi, Access.held]
    change (v.step access).2.after rest = _
    rw [step_eq h, ih (h.afterAccess access), htwice]
    rfl

theorem wellFormed_after (h : v.WellFormed) (history : List Access) :
    (v.after history).WellFormed := by
  rw [after_eq h]
  exact ⟨h.extent_eq, h.word, by rw [size_rewritten]; exact h.le_size⟩

theorem after_past (h : v.WellFormed) (history : List Access) :
    (v.after history).buffer.size = v.buffer.size ∧
      ∀ i, v.rows * v.cols ≤ i → (v.after history).buffer[i]? = v.buffer[i]? := by
  rw [after_eq h]
  refine ⟨size_rewritten v _, fun i hi => ?_⟩
  have hpast : ¬ i < v.extent := by
    rw [h.extent_eq]
    omega
  rw [getElem?_rewritten]
  simp [hpast]

theorem get_after (h : v.WellFormed) (history : List Access) (hrow : row < v.rows)
    (hcol : col < v.cols) : ∃ initial, v.buffer[row * v.cols + col]? = some initial ∧
      (v.after history).get row col = .ok (Access.held history row col initial) := by
  have hafter := wellFormed_after h history
  obtain ⟨initial, hinitial, -⟩ := read_of_inside h hrow hcol
  rw [after_eq h] at hafter ⊢
  obtain ⟨value, hvalue, hget⟩ := get_of_inside hafter hrow hcol
  have hin : row * v.cols + col < v.extent := by
    rw [h.extent_eq]
    exact place_lt hrow hcol
  rw [getElem?_rewritten, hinitial, Option.map_some, if_pos hin, place_div hcol, place_mod hcol] at hvalue
  obtain rfl := Option.some.inj hvalue
  exact ⟨initial, hinitial, hget⟩

/-! ## Views that begin alike -/

/-- The views are of one shape and have the same elements, whatever lies past them. -/
structure Alike (v w : View) : Prop where
  rows : w.rows = v.rows
  cols : w.cols = v.cols
  extent : w.extent = v.extent
  places : ∀ i < v.extent, w.buffer[i]? = v.buffer[i]?

namespace Alike

theorem afterAccess (h : v.Alike w) (access : Access) :
    (v.afterAccess access).Alike (w.afterAccess access) := by
  refine ⟨h.rows, h.cols, h.extent, fun i hi => ?_⟩
  simp only [View.afterAccess, getElem?_rewritten, h.cols, h.extent, h.places i hi]

theorem elements_eq (h : v.Alike w) : w.elements = v.elements := by
  rw [View.elements, h.extent]
  exact Buffer.extract_congr h.places

theorem get_eq (h : v.Alike w) (hv : v.WellFormed) (hw : w.WellFormed) (i j : Nat) :
    w.get i j = v.get i j := by
  by_cases hin : i < v.rows ∧ j < v.cols
  · have hplace : i * v.cols + j < v.extent := by
      rw [hv.extent_eq]
      exact place_lt hin.1 hin.2
    obtain ⟨x, hx, hgetV⟩ := get_of_inside hv hin.1 hin.2
    obtain ⟨y, hy, hgetW⟩ := get_of_inside hw (h.rows ▸ hin.1) (h.cols ▸ hin.2)
    rw [h.cols, h.places _ hplace, hx] at hy
    rw [hgetV, hgetW, Option.some.inj hy]
  · rw [get_of_outside hin, get_of_outside (by rw [h.rows, h.cols]; exact hin)]

/-- Also a row that is not there gives the same fault. -/
theorem row_eq (h : v.Alike w) (hv : v.WellFormed) (hw : w.WellFormed) (i : Nat) :
    w.row i = v.row i := by
  have hsize : v.extent ≤ v.buffer.size := hv.extent_eq ▸ hv.le_size
  have hsize' : v.extent ≤ w.buffer.size := h.extent ▸ hw.extent_eq ▸ hw.le_size
  simp only [View.row, h.cols, h.extent]
  cases offset i 0 v.cols with
  | error f => rfl
  | ok start =>
    cases offset i v.cols v.cols with
    | error f => rfl
    | ok stop =>
      simp only [bind, Except.bind]
      split
      case isTrue hstop =>
        exact Buffer.slice_congr (fun place hplace => h.places place (Nat.lt_of_lt_of_le hplace hstop))
          (Nat.le_trans hstop hsize) (Nat.le_trans hstop hsize')
      case isFalse => rfl

theorem reading_eq (h : v.Alike w) (hv : v.WellFormed) (hw : w.WellFormed) (access : Access) :
    w.reading access = v.reading access := by
  cases access with
  | elements => rw [View.reading, View.reading, h.elements_eq]
  | get i j => rw [View.reading, View.reading, h.get_eq hv hw]
  | row i => rw [View.reading, View.reading, h.row_eq hv hw]
  | set _ _ _ | add _ _ _ | fill _ =>
    simp only [View.reading, h.rows, h.cols, (h.afterAccess _).elements_eq]

theorem readings_eq (h : v.Alike w) (hv : v.WellFormed) (hw : w.WellFormed) (history : List Access) :
    w.readings history = v.readings history := by
  induction history generalizing v w with
  | nil => rfl
  | cons access rest ih =>
    rw [View.readings, View.readings, step_eq hv, step_eq hw, h.reading_eq hv hw,
      ih (h.afterAccess access) (hv.afterAccess access) (hw.afterAccess access)]

end Alike

/-! ## The whole -/

/-- A view of so many rows and columns can be had of a buffer exactly where they are in it. Whatever is
done through it then, a row and a column in range hold what was last written to them: by a write to just
that row and column, by a fill, or before the view was. An access in range succeeds, and one out of range is
named by the fault and changes nothing. To be handed an element and change it is to read it and set it,
with the same fault out of range. Past the view the buffer stays as it was, and
two buffers that differ only there give the same readings. A row is its elements, and past the last row
there are none: it is a fault, or empty without columns. -/
theorem view_isolated {buffer : Buffer} (hsize : buffer.size < wordLimit) (rows cols : Nat) :
    ((∃ v, ofBuffer buffer rows cols = .ok v) ↔ rows * cols ≤ buffer.size) ∧
    ∀ v, ofBuffer buffer rows cols = .ok v → ∀ history : List Access,
      (∀ row < rows, ∀ col < cols, ∃ initial, buffer[row * cols + col]? = some initial ∧
        (v.after history).get row col = .ok (Access.held history row col initial)) ∧
      (∀ access row col, access.place? = some (row, col) →
        (row < rows ∧ col < cols → ∃ r, ((v.after history).step access).1 = .ok r) ∧
        (¬ (row < rows ∧ col < cols) → (v.after history).step access =
          (.error (.indexOutOfRange row col), v.after history))) ∧
      (∀ row col f,
        (row < rows ∧ col < cols → ∃ old, (v.after history).get row col = .ok old ∧
          (v.after history).modify row col f = (v.after history).set row col (f old)) ∧
        (¬ (row < rows ∧ col < cols) →
          (v.after history).modify row col f = .error (.indexOutOfRange row col))) ∧
      ((v.after history).buffer.size = buffer.size ∧
        ∀ i, rows * cols ≤ i → (v.after history).buffer[i]? = buffer[i]?) ∧
      (∀ other w, ofBuffer other rows cols = .ok w → (∀ i < rows * cols, other[i]? = buffer[i]?) →
        w.readings history = v.readings history) ∧
      (∀ row < rows, ∃ data, (v.after history).row row = .ok data ∧ data.size = cols ∧
        ∀ col < cols, ∃ x, (v.after history).get row col = .ok x ∧ data[col]? = some x) ∧
      ∀ row, rows ≤ row → (cols = 0 ∧ (v.after history).row row = .ok #[]) ∨
        (0 < cols ∧ ∃ f, (v.after history).row row = .error f) := by
  constructor
  · simp only [ofBuffer_eq_ok_iff]
    constructor
    · rintro ⟨v, ⟨-, hle⟩, -⟩
      exact hle
    · intro hle
      exact ⟨_, ⟨Nat.lt_of_le_of_lt hle hsize, hle⟩, rfl⟩
  intro v hofBuffer history
  have hv := wellFormed_ofBuffer hofBuffer
  have hnow := wellFormed_after hv history
  obtain ⟨-, rfl⟩ := ofBuffer_eq_ok_iff.1 hofBuffer
  have hrows : (after ⟨buffer, rows * cols, rows, cols⟩ history).rows = rows := by rw [after_eq hv]
  have hcols : (after ⟨buffer, rows * cols, rows, cols⟩ history).cols = cols := by rw [after_eq hv]
  generalize hv' : after ⟨buffer, rows * cols, rows, cols⟩ history = now at *
  refine ⟨fun row hrow col hcol => ?_, fun access row col hplace => ⟨?_, ?_⟩,
    fun row col f => ⟨?_, ?_⟩, ?_, ?_, ?_, ?_⟩
  · exact hv' ▸ get_after hv history hrow hcol
  · intro hin
    rw [step_eq hnow]
    exact reading_of_inside hnow hplace (by rwa [hrows, hcols])
  · intro hout
    exact step_of_outside hplace (by rwa [hrows, hcols])
  · rintro ⟨hrow, hcol⟩
    exact modify_eq_set hnow (by rwa [hrows]) (by rwa [hcols]) f
  · intro hout
    exact modify_of_outside (by rwa [hrows, hcols]) f
  · exact hv' ▸ after_past hv history
  · intro other w hother hsame
    have hw := wellFormed_ofBuffer hother
    obtain ⟨-, rfl⟩ := ofBuffer_eq_ok_iff.1 hother
    have halike : Alike ⟨buffer, rows * cols, rows, cols⟩ ⟨other, rows * cols, rows, cols⟩ :=
      ⟨rfl, rfl, rfl, hsame⟩
    exact halike.readings_eq hv hw history
  · intro row hrow
    have hin : row < now.rows := by rwa [hrows]
    obtain ⟨data, hdata, hsize, hplaces⟩ := row_place hnow hin
    exact ⟨data, hdata, hsize.trans hcols, fun col hcol => hplaces col (by rwa [hcols])⟩
  · intro row hrow
    have hpast : now.rows ≤ row := by rwa [hrows]
    obtain ⟨hempty, hfault⟩ := row_of_le hnow hpast
    rcases Nat.eq_zero_or_pos cols with hzero | hpos
    · exact .inl ⟨hzero, hempty (hcols.trans hzero)⟩
    · exact .inr ⟨hpos, hfault (by rwa [hcols])⟩

/-- Two rows of two with a fifth element behind them, written, filled and written again. A column too
many is no element of the next row. -/
theorem view_isolated_two_rows :
    let buffer : Buffer := #[.zero, .one, .zero, .one, .infinity]
    let history : List Access :=
      [.set 0 1 .infinity, .fill .one, .set 1 0 .nan, .set 0 2 .zero, .get 7 7, .add 0 0 .zero]
    buffer.size < wordLimit ∧ ∃ v, ofBuffer buffer 2 2 = .ok v ∧
      (v.after history).get 0 0 = .ok .one ∧ (v.after history).get 0 1 = .ok .one ∧
      (v.after history).get 1 0 = .ok .nan ∧ (v.after history).buffer[4]? = some .infinity ∧
      (v.after history).step (.add 0 2 .one) = (.error (.indexOutOfRange 0 2), v.after history) ∧
      ∃ data f, (v.after history).row 1 = .ok data ∧ data.size = 2 ∧
        (v.after history).row 2 = .error f := by
  intro buffer history
  have hsize : buffer.size < wordLimit := by decide
  obtain ⟨hiff, hview⟩ := view_isolated hsize 2 2
  obtain ⟨v, hv⟩ := hiff.2 (by decide)
  obtain ⟨hget, hplace, -, ⟨-, hpast⟩, -, hrow, hnoRow⟩ := hview v hv history
  obtain ⟨x, hx, h00⟩ := hget 0 (by decide) 0 (by decide)
  obtain ⟨y, hy, h01⟩ := hget 0 (by decide) 1 (by decide)
  obtain ⟨z, hz, h10⟩ := hget 1 (by decide) 0 (by decide)
  obtain rfl : Single.zero = x := Option.some.inj hx
  obtain rfl : Single.one = y := Option.some.inj hy
  obtain rfl : Single.zero = z := Option.some.inj hz
  have hsum : Access.held history 0 0 .zero = .one := by decide
  obtain ⟨data, hdata, hlength, -⟩ := hrow 1 (by decide)
  obtain ⟨h0, -⟩ | ⟨-, f, hf⟩ := hnoRow 2 (by decide)
  · cases h0
  · exact ⟨hsize, v, hv, hsum ▸ h00, h01, h10, hpast 4 (by decide),
      (hplace (.add 0 2 .one) 0 2 rfl).2 (by decide), data, f, hdata, hlength, hf⟩

end View

end DenseMatmul
