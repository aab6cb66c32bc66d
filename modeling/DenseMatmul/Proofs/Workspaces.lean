import DenseMatmul.Matrix.Workspace
import DenseMatmul.Proofs.Matrices
import DenseMatmul.Proofs.Tables
/-!
# Matrices over whole histories

Whatever commands a workspace is given, and whichever kernels multiply, every matrix that can be had of
it is well formed (`after_wellFormed`). So an element can be read and written exactly where there is one,
and a write changes nothing else (`reachable_matrices`). And nothing but being well formed is known of
such a matrix: every well-formed one can come up (`Matrix.reachable_iff_wellFormed`).
-/

namespace DenseMatmul

/-- Rows to be joined are rows that could be in memory. -/
def Recipe.RowsExist : Recipe → Prop
  | .ofRows rows => Matrix.RowsExist rows
  | _ => True

def Command.RowsExist : Command → Prop
  | .make _ recipe => recipe.RowsExist
  | _ => True

namespace Workspace

variable {w next : Workspace} {name : String} {x : Matrix} {row col : Nat} {command : Command}
  {answer : Answer}

/-- The workspace after a list of commands. -/
def after (w : Workspace) (commands : List Command) : Workspace :=
  commands.foldl (fun w command => (w.step command).2) w

/-- Every matrix that can be found is well formed. -/
def WellFormed (w : Workspace) : Prop :=
  ∀ name x, w.matrices.lookup name = some x → x.WellFormed

/-! ## One command -/

theorem find_eq_ok_iff : (w.find name).result = .ok x ↔ w.matrices.lookup name = some x := by
  unfold find
  cases w.matrices.lookup name with
  | none => simp
  | some y => simp

theorem step_of_ok (h : (w.run command).result = .ok (answer, next)) :
    (w.step command).1.result = .ok answer ∧ (w.step command).2 = next := by
  simp only [step, h]
  exact ⟨trivial, trivial⟩

theorem step_of_error {e : Failure MatmulError} (h : (w.run command).result = .error e) :
    (w.step command).1.result = .error e ∧ (w.step command).2 = w := by
  simp only [step, h]
  exact ⟨trivial, trivial⟩

theorem WellFormed.insert (hw : w.WellFormed) (hx : x.WellFormed) : (w.insert name x).WellFormed := by
  intro other y hl
  simp only [Workspace.insert, erase, lookup_inserted] at hl
  split at hl
  · obtain rfl := Option.some.inj hl
    exact hx
  · exact hw other y hl

theorem WellFormed.erase (hw : w.WellFormed) : (w.erase name).WellFormed := by
  intro other y hl
  simp only [Workspace.erase, lookup_erased] at hl
  split at hl
  · cases hl
  · exact hw other y hl

/-- Each way to make a matrix, from well-formed ones where it takes any, makes a well-formed one. -/
theorem wellFormed_make {recipe : Recipe} (hw : w.WellFormed) (hrows : recipe.RowsExist)
    (h : (w.make recipe).result = .ok x) : x.WellFormed := by
  cases recipe with
  | ofData data rows cols => exact Matrix.wellFormed_ofData (Logged.mapError_eq_ok_iff.1 h)
  | zeros rows cols => exact Matrix.wellFormed_zeros (Logged.mapError_eq_ok_iff.1 h)
  | identity n => exact Matrix.wellFormed_identity (Logged.mapError_eq_ok_iff.1 h)
  | ofRows rows => exact Matrix.wellFormed_ofRows hrows (Logged.mapError_eq_ok_iff.1 h)
  | copy source => exact hw source x (find_eq_ok_iff.1 h)
  | transpose source =>
    obtain ⟨y, hy, hx⟩ := Logged.bind_eq_ok_iff.1 h
    exact Matrix.wellFormed_transpose (hw source y (find_eq_ok_iff.1 hy))
      (Logged.mapError_eq_ok_iff.1 hx)
  | product kernel left right =>
    -- The factors do not matter: only the kernel and the count of its output do.
    obtain ⟨y, -, hx⟩ := Logged.bind_eq_ok_iff.1 h
    obtain ⟨z, -, hx⟩ := Logged.bind_eq_ok_iff.1 hx
    exact Matrix.wellFormed_multiply hx

theorem run_update_eq_ok {change : Matrix → Except Fault Matrix}
    (h : (w.update name change).result = .ok (answer, next)) :
    ∃ x y, w.matrices.lookup name = some x ∧ change x = .ok y ∧ answer = .matrix y ∧
      next = w.insert name y := by
  simp only [update, Logged.bind_eq_ok_iff, find_eq_ok_iff] at h
  obtain ⟨x, hx, y, hy, hr⟩ := h
  cases hr
  exact ⟨x, y, hx, Logged.mapError_eq_ok_iff.1 hy, rfl, rfl⟩

/-- A write in a matrix of the workspace leaves that matrix well formed, and the others alone. -/
theorem update_wellFormed {f : Single → Single} (hw : w.WellFormed)
    (h : (w.update name (Matrix.through · (·.modify row col f))).result = .ok (answer, next)) :
    next.WellFormed ∧ ∀ x, answer = .matrix x → x.WellFormed := by
  obtain ⟨x, y, hx, hy, rfl, rfl⟩ := run_update_eq_ok h
  have hwritten := Matrix.wellFormed_modify (hw name x hx) hy
  refine ⟨hw.insert hwritten, ?_⟩
  rintro _ ⟨⟩
  exact hwritten

theorem run_wellFormed (hw : w.WellFormed) (hrows : command.RowsExist)
    (h : (w.run command).result = .ok (answer, next)) :
    next.WellFormed ∧ ∀ x, answer = .matrix x → x.WellFormed := by
  cases command with
  | make name recipe =>
    obtain ⟨x, hx, hr⟩ := Logged.bind_eq_ok_iff.1 h
    have hmade := wellFormed_make hw hrows hx
    cases hr
    refine ⟨hw.insert hmade, ?_⟩
    rintro _ ⟨⟩
    exact hmade
  | set name row col value => exact update_wellFormed hw h
  | add name row col value => exact update_wellFormed hw h
  | get _ _ _ | row _ _ | equal _ _ =>
    -- A command that only reads leaves the workspace as it is, and answers no matrix.
    simp only [run, Logged.bind_eq_ok_iff] at h
    obtain ⟨_, -, _, -, hr⟩ := h
    cases hr
    exact ⟨hw, nofun⟩
  | take name =>
    simp only [run, Logged.bind_eq_ok_iff] at h
    obtain ⟨_, -, hr⟩ := h
    cases hr
    exact ⟨hw.erase, nofun⟩

theorem step_wellFormed (hw : w.WellFormed) (hrows : command.RowsExist) :
    (w.step command).2.WellFormed ∧
      ∀ x, (w.step command).1.result = .ok (.matrix x) → x.WellFormed := by
  cases hr : (w.run command).result with
  | error e =>
    obtain ⟨hanswer, hnext⟩ := step_of_error hr
    rw [hanswer, hnext]
    exact ⟨hw, nofun⟩
  | ok out =>
    obtain ⟨answer, next⟩ := out
    obtain ⟨hanswer, hnext⟩ := step_of_ok hr
    obtain ⟨hwell, hmatrix⟩ := run_wellFormed hw hrows hr
    rw [hanswer, hnext]
    exact ⟨hwell, fun x heq => hmatrix x (Except.ok.inj heq)⟩

theorem after_wellFormed {commands : List Command} (hw : w.WellFormed)
    (hrows : ∀ command ∈ commands, command.RowsExist) : (w.after commands).WellFormed := by
  induction commands generalizing w with
  | nil => exact hw
  | cons first rest ih =>
    exact ih (step_wellFormed hw (hrows first (by simp))).1 fun command hmem =>
      hrows command (List.mem_cons_of_mem _ hmem)

/-! ## Elements by name -/

theorem run_get (hx : w.matrices.lookup name = some x) (row col : Nat) :
    (w.run (.get name row col)).result =
      ((x.get row col).mapError .halted).map fun value => (.value value, w) := by
  simp only [run, bind, find_eq_ok_iff.2 hx, Logged.result_ofFault]
  cases x.get row col <;> rfl

theorem run_set (hx : w.matrices.lookup name = some x) (row col : Nat) (value : Single) :
    (w.run (.set name row col value)).result =
      ((x.set row col value).mapError .halted).map fun y => (.matrix y, w.insert name y) := by
  simp only [run, update, bind, find_eq_ok_iff.2 hx, Logged.result_ofFault]
  cases x.set row col value <;> rfl

theorem step_get_of_inside (hx : w.matrices.lookup name = some x) (hwell : x.WellFormed)
    (hrow : row < x.rows) (hcol : col < x.cols) :
    ∃ value, x.data[row * x.cols + col]? = some value ∧
      (w.step (.get name row col)).1.result = .ok (.value value) := by
  obtain ⟨value, hvalue, hget⟩ := Matrix.get_of_inside hwell hrow hcol
  have hrun := run_get hx row col
  rw [hget] at hrun
  exact ⟨value, hvalue, (step_of_ok hrun).1⟩

theorem step_get_of_outside (hx : w.matrices.lookup name = some x)
    (h : ¬ (row < x.rows ∧ col < x.cols)) :
    (w.step (.get name row col)).1.result = .error (.halted (.indexOutOfRange row col)) := by
  have hrun := run_get hx row col
  rw [Matrix.get_of_outside h] at hrun
  exact (step_of_error hrun).1

/-- A write in range replaces one element of one matrix. -/
theorem step_set_of_inside (hx : w.matrices.lookup name = some x) (hwell : x.WellFormed)
    (hrow : row < x.rows) (hcol : col < x.cols) (value : Single) :
    ∃ y, (w.step (.set name row col value)).1.result = .ok (.matrix y) ∧
      y.rows = x.rows ∧ y.cols = x.cols ∧
      (∀ i, y.data[i]? = if i = row * x.cols + col then some value else x.data[i]?) ∧
      ∀ other, (w.step (.set name row col value)).2.matrices.lookup other =
        if other = name then some y else w.matrices.lookup other := by
  obtain ⟨old, hold, hset⟩ := Matrix.modify_of_inside hwell hrow hcol fun _ => value
  have hrun := run_set hx row col value
  rw [show x.set row col value = _ from hset] at hrun
  obtain ⟨hanswer, hnext⟩ := step_of_ok hrun
  refine ⟨_, hanswer, rfl, rfl, fun i => ?_, fun other => ?_⟩
  · rw [Array.getElem?_setIfInBounds]
    obtain ⟨hplace, -⟩ := Array.getElem?_eq_some_iff.1 hold
    by_cases hi : i = row * x.cols + col
    · rw [if_pos hi.symm, if_pos hplace, if_pos hi]
    · rw [if_neg (Ne.symm hi), if_neg hi]
  · rw [hnext]
    exact lookup_inserted ..

theorem step_set_of_outside (hx : w.matrices.lookup name = some x)
    (h : ¬ (row < x.rows ∧ col < x.cols)) (value : Single) :
    (w.step (.set name row col value)).1.result = .error (.halted (.indexOutOfRange row col)) ∧
      (w.step (.set name row col value)).2 = w := by
  have hrun := run_set hx row col value
  rw [show x.set row col value = _ from Matrix.modify_of_outside h _] at hrun
  exact step_of_error hrun

/-! ## Reachable matrices -/

/-- After any commands, with any kernels. Every matrix that is held or answered has the elements that
its rows and columns say, and their number is a word. A row and a column in range read the element in
that place, and writing there changes that element, no other, and no other matrix. A row or a column out
of range is named by the fault, and a write there changes nothing. -/
theorem reachable_matrices {commands : List Command}
    (hrows : ∀ command ∈ commands, command.RowsExist) :
    let w := ({} : Workspace).after commands
    (∀ command x, command.RowsExist → (w.step command).1.result = .ok (.matrix x) → x.WellFormed) ∧
    ∀ name x, w.matrices.lookup name = some x → x.WellFormed ∧ ∀ row col,
      (row < x.rows ∧ col < x.cols →
        (∃ value, x.data[row * x.cols + col]? = some value ∧
          (w.step (.get name row col)).1.result = .ok (.value value)) ∧
        ∀ value, ∃ y, (w.step (.set name row col value)).1.result = .ok (.matrix y) ∧
          y.rows = x.rows ∧ y.cols = x.cols ∧
          (∀ i, y.data[i]? = if i = row * x.cols + col then some value else x.data[i]?) ∧
          ∀ other, (w.step (.set name row col value)).2.matrices.lookup other =
            if other = name then some y else w.matrices.lookup other) ∧
      (¬ (row < x.rows ∧ col < x.cols) →
        (w.step (.get name row col)).1.result = .error (.halted (.indexOutOfRange row col)) ∧
        ∀ value,
          (w.step (.set name row col value)).1.result = .error (.halted (.indexOutOfRange row col)) ∧
          (w.step (.set name row col value)).2 = w) := by
  intro w
  have hempty : ({} : Workspace).WellFormed := fun _ _ hl => by cases hl
  have hwell : w.WellFormed := after_wellFormed hempty hrows
  refine ⟨fun command x hexist => (step_wellFormed hwell hexist).2 x, fun name x hx => ?_⟩
  refine ⟨hwell name x hx, fun row col => ⟨?_, ?_⟩⟩
  · rintro ⟨hrow, hcol⟩
    exact ⟨step_get_of_inside hx (hwell name x hx) hrow hcol,
      step_set_of_inside hx (hwell name x hx) hrow hcol⟩
  · intro houtside
    exact ⟨step_get_of_outside hx houtside, step_set_of_outside hx houtside⟩

/-- A matrix made of two rows is transposed beside one without columns that has all the rows there can
be. -/
theorem reachable_matrices_transposed :
    let commands : List Command := [.make "x" (.ofRows [#[.one, .nan, .zero], #[.zero, .one, .one]]),
      .make "tall" (.zeros 0xffffffffffffffff 0), .make "y" (.transpose "x")]
    let w := ({} : Workspace).after commands
    (∀ command ∈ commands, command.RowsExist) ∧
      (w.step (.get "y" 1 0)).1.result = .ok (.value .nan) ∧
      (w.step (.set "y" 0 2 .one)).2 = w ∧
      (w.step (.get "tall" 5 0)).1.result = .error (.halted (.indexOutOfRange 5 0)) := by
  intro commands w
  have hrows : ∀ command ∈ commands, command.RowsExist := by
    simp [commands, Command.RowsExist, Recipe.RowsExist, Matrix.RowsExist, wordLimit]
  obtain ⟨-, hreach⟩ := reachable_matrices hrows
  obtain ⟨-, hy⟩ := hreach "y" ⟨#[.one, .zero, .nan, .one, .zero, .one], 3, 2⟩ rfl
  obtain ⟨-, htall⟩ := hreach "tall" ⟨#[], 0xffffffffffffffff, 0⟩ rfl
  obtain ⟨value, hvalue, hget⟩ := ((hy 1 0).1 (by decide)).1
  obtain rfl := Option.some.inj hvalue
  exact ⟨hrows, hget, (((hy 0 2).2 (by decide)).2 .one).2, ((htall 5 0).2 (by decide)).1⟩

end Workspace

/-! ## Reachable matrices, one by one -/

namespace Matrix

/-- Some history of commands leaves the matrix under some name. -/
def Reachable (x : Matrix) : Prop :=
  ∃ commands : List Command, (∀ command ∈ commands, command.RowsExist) ∧
    ∃ name, (({} : Workspace).after commands).matrices.lookup name = some x

theorem ofData_of_wellFormed {x : Matrix} (h : x.WellFormed) :
    ofData x.data x.rows x.cols = .ok x := by
  have hlength : elementCount x.rows x.cols = .ok (x.rows * x.cols) :=
    elementCount_eq_ok_iff.2 ⟨h.word, rfl⟩
  simp only [ofData, hlength, bind, Except.bind, if_pos h.size]
  rfl

/-- A well-formed matrix can be made of its own elements, so every one is reachable. -/
theorem reachable_iff_wellFormed {x : Matrix} : x.Reachable ↔ x.WellFormed := by
  constructor
  · rintro ⟨commands, hrows, name, hl⟩
    have hempty : ({} : Workspace).WellFormed := fun _ _ hl => by cases hl
    exact Workspace.after_wellFormed hempty hrows name x hl
  · intro h
    let command : Command := .make "x" (.ofData x.data x.rows x.cols)
    have hrun : (({} : Workspace).run command).result =
        .ok (.matrix x, ({} : Workspace).insert "x" x) := by
      simp only [command, Workspace.run, Workspace.make, ofData_of_wellFormed h,
        Logged.result_bind, Logged.result_ofExcept]
      rfl
    refine ⟨[command], fun c hc => ?_, "x", ?_⟩
    · rw [List.mem_singleton.1 hc]
      exact trivial
    · change (({} : Workspace).step command).2.matrices.lookup "x" = some x
      rw [(Workspace.step_of_ok hrun).2]
      rfl

end Matrix

end DenseMatmul
