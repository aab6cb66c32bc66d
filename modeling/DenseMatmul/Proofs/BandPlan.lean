import DenseMatmul.Proofs.BandHeights
/-!
# The plan of the bands

How many threads a product gets, and which rows each band then has. There are no more threads than were
asked for or than there are rows, and a larger product never gets fewer of them (`threads_mono`). The
bands lie side by side from the first row to the last (`tiles_bands`). They may be fewer than the
threads, since each takes its share rounded up, but a product with more than one thread has at least
two.
-/

namespace DenseMatmul

/-! ## Side by side -/

/-- The bands have the rows from `first` to `last`, each goes on where the one before it ends, and none
is empty. -/
def Band.Tiles : Nat → List Band → Nat → Prop
  | first, [], last => first = last
  | first, band :: rest, last =>
    band.firstRow = first ∧ 0 < band.rows ∧ Tiles (first + band.rows) rest last

namespace Banding

variable {p : Banding} {s larger : Shape} {threads : Nat}

/-! ## Made kernels -/

/-- The ways to cut a product that are made for so many threads: the usual one, and any of them with
other cut-offs. -/
inductive MadeFor (threads : Nat) : Banding → Prop
  | usual : MadeFor threads (.ofThreads threads)
  | split {p : Banding} (minFlops minRows : Nat) (h : MadeFor threads p) :
      MadeFor threads (p.withSplit minFlops minRows)

theorem MadeFor.maxThreads_eq (h : p.MadeFor threads) : p.maxThreads = max 1 threads := by
  induction h with
  | usual => exact Nat.max_comm threads 1
  | split minFlops minRows _ ih => exact ih

/-! ## Threads -/

theorem threads_le_rows (p : Banding) (hm : 0 < s.m) : p.threads s ≤ s.m := by
  have hshare := Nat.div_le_self s.m p.minRows
  unfold threads
  split <;> omega

theorem threads_mono (p : Banding) (hm : s.m ≤ larger.m) (hn : s.n ≤ larger.n)
    (hk : s.k ≤ larger.k) : p.threads s ≤ p.threads larger := by
  by_cases hsmall : s.flops < p.minFlops
  · -- One thread is the least there can be.
    rw [threads, if_pos hsmall]
    exact one_le_threads p larger
  · have hflops := Shape.flops_mono hm hn hk
    have hshare : s.m / p.minRows ≤ larger.m / p.minRows := Nat.div_le_div_right hm
    rw [threads, threads, if_neg hsmall, if_neg (by omega)]
    omega

theorem two_le_threads_of_split (hthreads : 2 ≤ threads) (hm : 2 ≤ s.m) :
    2 ≤ ((ofThreads threads).withSplit 0 1).threads s := by
  have hmax : ((ofThreads threads).withSplit 0 1).maxThreads = max threads 1 := rfl
  have hshare : s.m / ((ofThreads threads).withSplit 0 1).minRows = s.m := Nat.div_one s.m
  have hflops : ¬ s.flops < ((ofThreads threads).withSplit 0 1).minFlops := Nat.not_lt_zero _
  rw [Banding.threads, if_neg hflops, hmax, hshare]
  omega

/-! ## Bands -/

/-- How many bands there are. -/
def bandCount (p : Banding) (s : Shape) : Nat :=
  (s.m + p.rowsPerBand s - 1) / p.rowsPerBand s

theorem lt_bandCount_iff (p : Banding) (hm : 0 < s.m) {i : Nat} :
    i < p.bandCount s ↔ i * p.rowsPerBand s < s.m :=
  lt_ceil_iff (rowsPerBand_pos hm)

theorem bandCount_le_threads (p : Banding) (hm : 0 < s.m) : p.bandCount s ≤ p.threads s := by
  apply Nat.le_of_not_lt
  intro hmore
  rw [lt_bandCount_iff p hm, Nat.mul_comm, ← Splits.lt_rowsPerBand_iff] at hmore
  exact Nat.lt_irrefl _ hmore

/-- The last `count` bands, of which band `i` is the first, have the rows from there on. -/
theorem tiles_from (p : Banding) (hm : 0 < s.m) (count i : Nat) (h : i + count = p.bandCount s) :
    Band.Tiles (min (i * p.rowsPerBand s) s.m) ((List.range' i count).map (p.band s)) s.m := by
  induction count generalizing i with
  | zero =>
    have hpast : ¬ i * p.rowsPerBand s < s.m := by
      rw [← lt_bandCount_iff p hm]
      omega
    exact Nat.min_eq_right (Nat.le_of_not_lt hpast)
  | succ count ih =>
    have hin : i * p.rowsPerBand s < s.m := (lt_bandCount_iff p hm).1 (by omega)
    have hrows := rowsPerBand_pos (p := p) hm
    have hnext : min (i * p.rowsPerBand s) s.m + (p.band s i).rows =
        min ((i + 1) * p.rowsPerBand s) s.m := by
      simp only [band, Nat.succ_mul]
      omega
    rw [List.range'_succ, List.map_cons]
    refine ⟨?_, ?_, ?_⟩
    · simp only [band]
      omega
    · simp only [band]
      omega
    · rw [hnext]
      exact ih (i + 1) (by omega)

theorem tiles_bands (p : Banding) (hm : 0 < s.m) :
    Band.Tiles 0 ((List.range (p.bandCount s)).map (p.band s)) s.m := by
  have h := tiles_from p hm (p.bandCount s) 0 (Nat.zero_add _)
  rwa [Nat.zero_mul, Nat.zero_min, ← List.range_eq_range'] at h

/-- Every band that is not the last has its full share. -/
theorem rows_of_mem_dropLast (p : Banding) (hm : 0 < s.m) {band : Band}
    (h : band ∈ ((List.range (p.bandCount s)).map (p.band s)).dropLast) :
    band.rows = p.rowsPerBand s := by
  cases hcount : p.bandCount s with
  | zero => simp [hcount] at h
  | succ count =>
    rw [hcount, List.range_succ, List.map_append, List.map_singleton, List.dropLast_concat] at h
    obtain ⟨i, hi, rfl⟩ := List.mem_map.1 h
    have hafter : (i + 1) * p.rowsPerBand s < s.m := by
      rw [← lt_bandCount_iff p hm, hcount]
      have := List.mem_range.1 hi
      omega
    rw [Nat.succ_mul] at hafter
    exact Nat.min_eq_left (by omega)

theorem splits_of_two_le {aSize bSize cSize : Nat} (hs : s.Fits aSize bSize cSize) (hm : 0 < s.m)
    (hn : 0 < s.n) (ht : 2 ≤ p.threads s) : p.Splits s :=
  ⟨hs.a_word, hs.b_word, hs.c_word, hm, hn, by omega⟩

end Banding

/-- A band is handed just its own rows of A. -/
theorem Band.slice_place {band : Band} {s : Shape} {a : Buffer} {bSize cSize : Nat}
    (hs : s.Fits a.size bSize cSize) (hn : 0 < s.n) (h : band.firstRow + band.rows ≤ s.m) :
    ∃ rows, band.slice s a = .ok rows ∧ rows.size = band.rows * s.k ∧
      ∀ i < band.rows, ∀ q < s.k, rows[i * s.k + q]? = a[(band.firstRow + i) * s.k + q]? := by
  have hm : s.m < wordLimit := Nat.lt_of_le_of_lt (Nat.le_mul_of_pos_right _ hn) hs.c_word
  refine ⟨band.rowsOf s a, slice_eq h hm hs.a_word hs.a_le, size_rowsOf h hs.a_le, ?_⟩
  intro i hi q hq
  have hplace : i * s.k + q < (band.rowsOf s a).size := by
    rw [size_rowsOf h hs.a_le]
    exact Reference.place_lt hi hq
  rw [rowsOf, Array.size_extract] at hplace
  rw [rowsOf, Array.getElem?_extract, if_pos hplace, Nat.add_mul, Nat.add_assoc]

namespace Banding

/-- The plan of a product whose buffers fit and whose output is not empty. The threads are at least one,
and no more than asked for or than there are rows. There is one thread for fewer operations than the
least to be cut, and a larger product never has fewer threads. With more than one thread there are two
bands or more, but no more than threads. They lie side by side over all rows, all but the last have the
share of one thread rounded up, and each is handed its own rows of A. With cut-offs of nothing and one
row, two threads are enough to cut whatever has two rows. -/
theorem band_plan {threads : Nat} {p : Banding} (hp : p.MadeFor threads) {s : Shape}
    {a b c : Buffer} (hs : s.validate a.size b.size c.size = .ok ()) (hm : 1 ≤ s.m) (hn : 1 ≤ s.n) :
    let t := p.threads s
    (1 ≤ t ∧ t ≤ max 1 threads ∧ t ≤ s.m) ∧
      (s.flops < p.minFlops → t = 1) ∧
      (∀ larger : Shape, s.m ≤ larger.m → s.n ≤ larger.n → s.k ≤ larger.k →
        t ≤ p.threads larger) ∧
      (2 ≤ t → ∃ bands, p.bands s = .ok bands ∧ 2 ≤ bands.length ∧ bands.length ≤ t ∧
        Band.Tiles 0 bands s.m ∧
        (∀ band ∈ bands.dropLast, band.rows = (s.m + t - 1) / t) ∧
        ∀ band ∈ bands, ∃ rows, band.slice s a = .ok rows ∧ rows.size = band.rows * s.k ∧
          ∀ i < band.rows, ∀ q < s.k, rows[i * s.k + q]? = a[(band.firstRow + i) * s.k + q]?) ∧
      (p = (ofThreads threads).withSplit 0 1 → 2 ≤ threads → 2 ≤ s.m → 2 ≤ t) := by
  intro t
  rw [Shape.validate_eq_ok_iff_fits] at hs
  refine ⟨⟨one_le_threads p s, ?_, threads_le_rows p hm⟩, fun hsmall => if_pos hsmall, ?_, ?_, ?_⟩
  · rw [← hp.maxThreads_eq]
    exact Splits.threads_le_maxThreads p s
  · intro larger hm' hn' hk'
    exact threads_mono p hm' hn' hk'
  · intro ht
    obtain ⟨bands, hbands, hmany, -, -⟩ := (splits_of_two_le hs hm hn ht).plan
    obtain rfl := Except.ok.inj (hbands.symm.trans (bands_eq hm hn hs.c_word))
    refine ⟨_, hbands, hmany, ?_, tiles_bands p hm, ?_, ?_⟩
    · rw [List.length_map, List.length_range]
      exact bandCount_le_threads p hm
    · intro band hband
      exact rows_of_mem_dropLast p hm hband
    · intro band hband
      obtain ⟨i, hi, rfl⟩ := List.mem_map.1 hband
      have hin := (lt_bandCount_iff p hm).1 (List.mem_range.1 hi)
      exact Band.slice_place hs hn (band_in_range p hin)
  · rintro rfl hthreads hrows
    exact two_le_threads_of_split hthreads hrows

/-- Five rows for four threads: a share is two rows, so three bands are enough, and the last has one
row. -/
theorem band_plan_five_rows :
    let p := (ofThreads 4).withSplit 0 1
    let s : Shape := ⟨5, 1, 1⟩
    let a : Buffer := #[.zero, .one, .nan, .infinity, .one]
    p.MadeFor 4 ∧ s.validate a.size 1 5 = .ok () ∧ p.threads s = 4 ∧
      p.bands s = .ok [⟨0, 2⟩, ⟨2, 2⟩, ⟨4, 1⟩] ∧ Band.Tiles 0 [⟨0, 2⟩, ⟨2, 2⟩, ⟨4, 1⟩] s.m ∧
      ∃ rows, (Band.mk 2 2).slice s a = .ok rows ∧ rows.size = 2 ∧ rows[1]? = some .infinity := by
  intro p s a
  have hp : p.MadeFor 4 := .split 0 1 .usual
  have hs : s.validate a.size 1 5 = .ok () := rfl
  obtain ⟨-, -, -, hplan, hsplit⟩ := band_plan hp (a := a) (b := #[.one])
    (c := .replicate 5 .zero) hs (by decide) (by decide)
  obtain ⟨bands, hbands, -, -, htiles, -, hslice⟩ := hplan (hsplit rfl (by decide) (by decide))
  have heq : p.bands s = .ok [⟨0, 2⟩, ⟨2, 2⟩, ⟨4, 1⟩] :=
    (bands_eq (p := p) (by decide) (by decide) (by decide)).trans (congrArg Except.ok (by decide))
  obtain rfl := Except.ok.inj (hbands.symm.trans heq)
  obtain ⟨rows, hrows, hsize, hplace⟩ := hslice ⟨2, 2⟩ (by simp)
  exact ⟨hp, hs, by decide, heq, htiles, rows, hrows, hsize, hplace 1 (by decide) 0 (by decide)⟩

end Banding

end DenseMatmul
