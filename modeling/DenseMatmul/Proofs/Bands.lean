import DenseMatmul.Proofs.Interleaving
import DenseMatmul.Proofs.Reference
import DenseMatmul.Selection
/-!
# The banded product

Bands are cut by elements of C, `rowsPerBand * n` at a time; `bands_eq` says that this cuts between
rows, and which rows each band gets. Every row is in a band, so with the rows of A that belong to it
a band stores at each of its cells what the whole product holds there (`bandSteps_covers`).

With the order of the stores out of the way (`Step.interleaved_eq_fill`), a banded call leaves what
the reference leaves (`multiplyBy_agrees`). Both refuse the same lengths.
-/

namespace DenseMatmul

namespace Banding

variable {p : Banding} {s : Shape}

/-! ## The plan -/

theorem one_le_threads (p : Banding) (s : Shape) : 1 ≤ p.threads s := by
  unfold threads
  split
  · exact Nat.le_refl 1
  · exact Nat.le_min.2 ⟨Nat.le_max_right _ _, p.one_le_maxThreads⟩

theorem rowsPerBand_pos (hm : 0 < s.m) : 0 < p.rowsPerBand s := by
  have ht := one_le_threads p s
  exact Nat.div_pos (by omega) ht

theorem rowsPerBand_le (p : Banding) (hm : 0 < s.m) : p.rowsPerBand s ≤ s.m := by
  have ht := one_le_threads p s
  refine Nat.div_le_of_le_mul ?_
  have h : s.m + p.threads s ≤ s.m * p.threads s + 1 := by
    obtain ⟨m', hm'⟩ := Nat.exists_eq_add_of_le hm
    obtain ⟨t', ht'⟩ := Nat.exists_eq_add_of_le ht
    rw [hm', ht']
    simp only [Nat.add_mul, Nat.mul_add, Nat.one_mul, Nat.mul_one]
    omega
  rw [Nat.mul_comm]
  omega

/-- How many runs of `size` it takes to cover `x`. -/
theorem lt_ceil_iff {i x size : Nat} (h : 0 < size) : i < (x + size - 1) / size ↔ i * size < x := by
  rw [Nat.lt_iff_add_one_le, Nat.le_div_iff_mul_le h, Nat.succ_mul]
  omega

/-- The rows of band `i`. -/
def band (p : Banding) (s : Shape) (i : Nat) : Band where
  firstRow := i * p.rowsPerBand s
  rows := min (p.rowsPerBand s) (s.m - i * p.rowsPerBand s)

/-- Cutting C by elements cuts it between rows. -/
theorem bands_eq (hm : 0 < s.m) (hn : 0 < s.n) (hw : s.m * s.n < wordLimit) :
    p.bands s =
      .ok ((List.range ((s.m + p.rowsPerBand s - 1) / p.rowsPerBand s)).map (p.band s)) := by
  have hr : 0 < p.rowsPerBand s := rowsPerBand_pos hm
  have hsize : 0 < p.rowsPerBand s * s.n := Nat.mul_pos hr hn
  have hword : p.rowsPerBand s * s.n < wordLimit :=
    Nat.lt_of_le_of_lt (Nat.mul_le_mul_right _ (rowsPerBand_le p hm)) hw
  have hcount : (s.m * s.n + p.rowsPerBand s * s.n - 1) / (p.rowsPerBand s * s.n) =
      (s.m + p.rowsPerBand s - 1) / p.rowsPerBand s := by
    have h : ∀ i, i < (s.m * s.n + p.rowsPerBand s * s.n - 1) / (p.rowsPerBand s * s.n) ↔
        i < (s.m + p.rowsPerBand s - 1) / p.rowsPerBand s := fun i => by
      rw [lt_ceil_iff hsize, lt_ceil_iff hr, ← Nat.mul_assoc, Nat.mul_lt_mul_right hn]
    exact Nat.le_antisymm (Nat.le_of_not_lt fun hlt => Nat.lt_irrefl _ ((h _).1 hlt))
      (Nat.le_of_not_lt fun hlt => Nat.lt_irrefl _ ((h _).2 hlt))
  have hband : ∀ i, (⟨i * p.rowsPerBand s, min (p.rowsPerBand s * s.n)
      (s.m * s.n - i * (p.rowsPerBand s * s.n)) / s.n⟩ : Band) = p.band s i := fun i => by
    rw [band, ← Nat.mul_assoc, ← Nat.sub_mul, Nat.mul_min_mul_right, Nat.mul_div_cancel _ hn]
  simp only [bands, wordProduct_of_lt hword, bind, Except.bind,
    if_neg (show ¬ p.rowsPerBand s * s.n = 0 by omega), hcount, hband]
  rfl

theorem band_in_range (p : Banding) {i : Nat} (h : i * p.rowsPerBand s < s.m) :
    (p.band s i).firstRow + (p.band s i).rows ≤ s.m := by
  simp only [band]
  omega

/-- The band that has a row. -/
theorem exists_band (hm : 0 < s.m) {row : Nat} (h : row < s.m) :
    ∃ i, i * p.rowsPerBand s < s.m ∧ (p.band s i).firstRow ≤ row ∧
      row < (p.band s i).firstRow + (p.band s i).rows := by
  have hlow := Nat.div_mul_le_self row (p.rowsPerBand s)
  have hhigh := Nat.lt_div_mul_add (a := row) (rowsPerBand_pos (p := p) hm)
  refine ⟨row / p.rowsPerBand s, by omega, hlow, ?_⟩
  simp only [band]
  omega

end Banding

/-! ## One band -/

namespace Band

open Reference

variable {band : Band} {s : Shape} {a b : Buffer}

/-- The band's rows of A. -/
def rowsOf (band : Band) (s : Shape) (a : Buffer) : Buffer :=
  a.extract (band.firstRow * s.k) ((band.firstRow + band.rows) * s.k)

/-- The band's rows end where rows of A end. -/
theorem end_le (h : band.firstRow + band.rows ≤ s.m) (x : Nat) :
    band.firstRow * x + band.rows * x ≤ s.m * x := by
  rw [← Nat.add_mul]
  exact Nat.mul_le_mul_right _ h

theorem size_rowsOf (h : band.firstRow + band.rows ≤ s.m) (ha : s.m * s.k ≤ a.size) :
    (band.rowsOf s a).size = band.rows * s.k := by
  have hend := end_le h s.k
  rw [rowsOf, Array.size_extract, Nat.add_mul, Nat.min_eq_left (by omega)]
  omega

theorem slice_eq (h : band.firstRow + band.rows ≤ s.m) (hm : s.m < wordLimit)
    (hw : s.m * s.k < wordLimit) (ha : s.m * s.k ≤ a.size) :
    band.slice s a = .ok (band.rowsOf s a) := by
  have hend := end_le h s.k
  rw [← Nat.add_mul] at hend
  have hstart : band.firstRow * s.k ≤ (band.firstRow + band.rows) * s.k :=
    Nat.mul_le_mul_right _ (Nat.le_add_right _ _)
  rw [slice, wordSum_of_lt (by omega), wordProduct_of_lt (by omega)]
  simp only [bind, Except.bind]
  rw [wordProduct_of_lt (by omega)]
  exact Buffer.slice_eq_ok_iff.2 ⟨hstart, by omega, rfl⟩

theorem rowsOf_place (h : band.firstRow + band.rows ≤ s.m) (ha : s.m * s.k ≤ a.size) {i p : Nat}
    (hi : i < band.rows) (hp : p < s.k) :
    (band.rowsOf s a)[i * s.k + p]! = a[(band.firstRow + i) * s.k + p]! := by
  have hplace : i * s.k + p < band.rows * s.k := place_lt hi hp
  have hend := end_le h s.k
  have hsize : i * s.k + p < (band.rowsOf s a).size := by rw [size_rowsOf h ha]; exact hplace
  rw [getElem!_pos (band.rowsOf s a) _ hsize, getElem!_pos a _ (by rw [Nat.add_mul]; omega)]
  simp only [rowsOf, Array.getElem_extract, Nat.add_mul, Nat.add_assoc]

/-- A band's sums are those of its rows in the whole product. -/
theorem sumTo_rowsOf (h : band.firstRow + band.rows ≤ s.m) (ha : s.m * s.k ≤ a.size) {i : Nat}
    (hi : i < band.rows) (j : Nat) {p : Nat} (hp : p ≤ s.k) :
    sumTo (band.shape s) (band.rowsOf s a) b i j p = sumTo s a b (band.firstRow + i) j p := by
  induction p with
  | zero => rfl
  | succ p ih =>
    rw [sumTo, sumTo, ih (by omega), ← rowsOf_place h ha hi (show p < s.k by omega)]
    rfl

theorem element_rowsOf (h : band.firstRow + band.rows ≤ s.m) (ha : s.m * s.k ≤ a.size)
    (hn : 0 < s.n) {cell : Nat} (hcell : cell < band.rows * s.n) :
    element (band.shape s) (band.rowsOf s a) b cell =
      element s a b (band.firstRow * s.n + cell) := by
  have hrow : cell / s.n < band.rows := row_lt (s := band.shape s) hcell
  simp only [element, dot, Nat.mul_comm band.firstRow s.n, Nat.mul_add_div hn, Nat.mul_add_mod]
  exact sumTo_rowsOf h ha hrow _ (Nat.le_refl _)

/-- The stores of a band: the elements of the whole product at the cells of its rows. -/
theorem steps_eq (h : band.firstRow + band.rows ≤ s.m) (hn : 0 < s.n) {cSize : Nat}
    (hf : s.Fits a.size b.size cSize) :
    band.steps s a b = (List.range (band.rows * s.n)).map fun cell =>
      Step.write (element s a b) (band.firstRow * s.n + cell) := by
  have hm : s.m < wordLimit := Nat.lt_of_le_of_lt (Nat.le_mul_of_pos_right _ hn) hf.c_word
  have hrows : ∀ x, band.rows * x ≤ s.m * x := fun x => Nat.mul_le_mul_right _ (by omega)
  have hfit : (band.shape s).Fits (band.rowsOf s a).size b.size (band.rows * s.n) :=
    ⟨Nat.lt_of_le_of_lt (hrows _) hf.a_word, Nat.le_of_eq (size_rowsOf h hf.a_le).symm,
      hf.b_word, hf.b_le, Nat.lt_of_le_of_lt (hrows _) hf.c_word, Nat.le_refl _⟩
  rw [steps, slice_eq h hm hf.a_word hf.a_le]
  simp only [Reference.steps_eq hfit, List.map_map]
  refine List.map_congr_left fun cell hcell => ?_
  have helement := element_rowsOf (b := b) h hf.a_le hn (List.mem_range.1 hcell)
  simp only [Function.comp_apply, Step.write, Except.map, Store.shift, helement]

end Band

/-! ## All bands -/

namespace Banding

open Reference

variable {p : Banding} {s : Shape} {a b c : Buffer}

/-- The bands store every element of the product, and nothing else. -/
theorem bandSteps_covers (p : Banding) (hm : 0 < s.m) (hn : 0 < s.n)
    (hf : s.Fits a.size b.size c.size) :
    ∃ lists, p.bandSteps s a b = .ok lists ∧
      Step.Covers (element s a b) (s.m * s.n) lists := by
  refine ⟨_, by rw [bandSteps, bands_eq hm hn hf.c_word]; rfl, ?_, fun cell hcell => ?_⟩
  · intro steps hsteps step hstep
    simp only [List.mem_map, List.mem_range, lt_ceil_iff (rowsPerBand_pos (p := p) hm)] at hsteps
    obtain ⟨_, ⟨i, hi, rfl⟩, rfl⟩ := hsteps
    have hin := band_in_range p hi
    rw [Band.steps_eq hin hn hf] at hstep
    obtain ⟨cell, hcell, rfl⟩ := List.mem_map.1 hstep
    have hend := Band.end_le hin s.n
    exact ⟨_, by have := List.mem_range.1 hcell; omega, rfl⟩
  · obtain ⟨i, hi, hlow, hhigh⟩ := exists_band (p := p) hm (row_lt hcell)
    have hin := band_in_range p hi
    refine ⟨(p.band s i).steps s a b, ?_, ?_⟩
    · simp only [List.mem_map, List.mem_range, lt_ceil_iff (rowsPerBand_pos (p := p) hm)]
      exact ⟨_, ⟨i, hi, rfl⟩, rfl⟩
    · -- The cell lies in row `cell / n`, so it is that many rows, less those before the band, in.
      rw [Band.steps_eq hin hn hf]
      have hfirst : (p.band s i).firstRow * s.n ≤ cell :=
        Nat.le_trans (Nat.mul_le_mul_right _ hlow) (Nat.div_mul_le_self _ _)
      have hlast : cell < (p.band s i).firstRow * s.n + (p.band s i).rows * s.n := by
        rw [← Nat.add_mul]
        exact (Nat.div_lt_iff_lt_mul hn).1 hhigh
      refine List.mem_map.2 ⟨cell - (p.band s i).firstRow * s.n, List.mem_range.2 (by omega), ?_⟩
      rw [Nat.add_sub_cancel' hfirst]

/-- A banded call whose buffers fit leaves the product, in whatever order its bands run. -/
theorem multiplyBy_of_fits {runBands : List (List Step) → Buffer → Run}
    (hs : Step.Schedules runBands) (p : Banding) (hf : s.Fits a.size b.size c.size) :
    (p.multiplyBy runBands s a b c).answer.result = .ok () ∧
      (p.multiplyBy runBands s a b c).c = product s a b c := by
  unfold multiplyBy
  rw [Shape.validate_eq_ok_iff_fits.2 hf]
  dsimp only
  by_cases hzero : s.m = 0 ∨ s.n = 0
  · have hcells : s.m * s.n = 0 := Nat.mul_eq_zero.2 hzero
    rw [if_pos hzero, product, hcells, Step.fill_zero]
    exact ⟨rfl, rfl⟩
  rw [if_neg hzero]
  by_cases hone : p.threads s = 1
  · rw [if_pos hone, multiply_eq hf]
    exact ⟨rfl, rfl⟩
  rw [if_neg hone]
  obtain ⟨lists, hlists, hcovers⟩ := p.bandSteps_covers (by omega) (by omega) hf
  rw [hlists]
  dsimp only
  rw [Step.interleaved_eq_fill hcovers hf.c_le (hs lists c)]
  exact ⟨rfl, rfl⟩

end Banding

/-! ## Agreement with the reference -/

/-- A call that gives an answer, and with it the result and the output buffer of another call. -/
structure Call.Agrees (call other : Call) : Prop where
  answers : ∀ f, call.answer.result ≠ .error (.halted f)
  result : call.answer.result = other.answer.result
  c : call.c = other.c

namespace Banding

theorem multiplyBy_agrees {runBands : List (List Step) → Buffer → Run}
    (hs : Step.Schedules runBands) (p : Banding) (s : Shape) (a b c : Buffer) :
    (p.multiplyBy runBands s a b c).Agrees (Reference.multiplyChecked s a b c) := by
  by_cases hf : s.Fits a.size b.size c.size
  · obtain ⟨hr, hc⟩ := multiplyBy_of_fits hs p hf
    obtain ⟨hr', hc'⟩ := Reference.multiplyChecked_of_fits hf
    exact ⟨by simp [hr], by rw [hr, hr'], by rw [hc, hc']⟩
  · obtain ⟨e, -, hv⟩ := Shape.exists_refusal hf
    have h : p.multiplyBy runBands s a b c = { answer := .refuse e, c } := by rw [multiplyBy, hv]
    rw [h, Reference.multiplyChecked_of_refused hv]
    exact ⟨by simp, rfl, rfl⟩

end Banding

/-- Every kernel that can be selected agrees with the reference. -/
theorem Selection.kernel_agrees (selection : Selection) (s : Shape) (a b c : Buffer) :
    (selection.kernel.multiplyInto s a b c).Agrees (Reference.multiplyChecked s a b c) := by
  unfold Selection.kernel
  split
  · exact ⟨Reference.multiplyChecked_answers s a b c, rfl, rfl⟩
  · exact Banding.multiplyBy_agrees Step.schedules_runAll _ s a b c

/-- Every call of the kernel answers what the reference answers and leaves what the reference leaves. -/
def Kernel.Faithful (kernel : Kernel) : Prop :=
  ∀ s a b c, (kernel.multiplyInto s a b c).Agrees (Reference.multiplyChecked s a b c)

theorem Kernel.faithful_reference : Kernel.reference.Faithful := fun s a b c =>
  ⟨Reference.multiplyChecked_answers s a b c, rfl, rfl⟩

/-- A banded kernel is faithful in whatever order its bands run. -/
theorem Kernel.faithful_of_schedules {kernel : Kernel} {p : Banding}
    {runBands : List (List Step) → Buffer → Run} (hs : Step.Schedules runBands)
    (h : kernel.multiplyInto = p.multiplyBy runBands) : kernel.Faithful := fun s a b c => by
  rw [h]
  exact Banding.multiplyBy_agrees hs p s a b c

theorem Kernel.faithful_rowParallel (p : Banding) : (Kernel.rowParallel p).Faithful :=
  Kernel.faithful_of_schedules Step.schedules_runAll rfl

/-- The kernels there are: the reference, and the banded ones in whatever order their bands run. -/
inductive Kernel.Provided : Kernel → Prop
  | reference : Provided .reference
  | rowParallel (p : Banding) : Provided (.rowParallel p)
  | scheduled {kernel : Kernel} (p : Banding) {runBands : List (List Step) → Buffer → Run}
      (hs : Step.Schedules runBands) (h : kernel.multiplyInto = p.multiplyBy runBands) :
      Provided kernel

theorem Kernel.Provided.faithful {kernel : Kernel} (h : kernel.Provided) : kernel.Faithful := by
  cases h with
  | reference => exact Kernel.faithful_reference
  | rowParallel p => exact Kernel.faithful_rowParallel p
  | scheduled p hs h => exact Kernel.faithful_of_schedules hs h

/-- However a product is cut, and in whatever order the single stores of its bands come, the call
answers what the reference answers and leaves the buffer it leaves. So does every kernel that is
built from a selection. -/
theorem cut_product_agrees (s : Shape) (a b c : Buffer) :
    let wanted := Kernel.reference.multiplyInto s a b c
    (∀ p : Banding, ((Kernel.rowParallel p).multiplyInto s a b c).Agrees wanted) ∧
      (∀ (p : Banding) (runBands : List (List Step) → Buffer → Run), Step.Schedules runBands →
        (p.multiplyBy runBands s a b c).Agrees wanted) ∧
      ∀ (selection : Selection) (kernel : Kernel),
        (selection.build : Logged MatmulError Kernel).result = .ok kernel →
        (kernel.multiplyInto s a b c).Agrees wanted := by
  refine ⟨fun p => ?_, fun p runBands hs => ?_, fun selection kernel hk => ?_⟩
  · exact Banding.multiplyBy_agrees Step.schedules_runAll p s a b c
  · exact Banding.multiplyBy_agrees hs p s a b c
  · obtain rfl : selection.kernel = kernel := Except.ok.inj hk
    exact selection.kernel_agrees s a b c

/-- Two rows for two threads, in a buffer with room for a third. -/
theorem cut_product_agrees_two_bands :
    let p := (Banding.ofThreads 2).withSplit 0 0
    let call := p.multiplyBy Step.runAll ⟨2, 1, 1⟩ #[.one, .nan] #[.one] #[.zero, .zero, .zero]
    p.threads ⟨2, 1, 1⟩ = 2 ∧ Step.Schedules Step.runAll ∧ call.answer.result = .ok () ∧
      call.c = #[.one, .nan, .zero] := by
  have h := (cut_product_agrees ⟨2, 1, 1⟩ #[.one, .nan] #[.one] #[.zero, .zero, .zero]).2.1
    ((Banding.ofThreads 2).withSplit 0 0) Step.runAll Step.schedules_runAll
  exact ⟨by decide, Step.schedules_runAll, h.result, h.c⟩

end DenseMatmul
