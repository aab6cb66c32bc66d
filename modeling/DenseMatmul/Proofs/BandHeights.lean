import DenseMatmul.Proofs.Bands
import DenseMatmul.Proofs.Operations
/-!
# The heights of bands

There is one thread to every `minRows` rows at most, so shared out evenly each would have that many.
But the rows of a band are rounded up, and what that gives to the others the last band lacks. So every
band has `minRows` rows but the last, and the last one has them exactly where nothing is left over for
it or enough is (`Splits.tall_iff`).

Two bands always have them. For three threads, and a least number of more than one row, there is a
product whose last band is one row short (`exists_short_band`).
-/

namespace DenseMatmul.Banding

variable {p : Banding} {s : Shape}

/-- The lengths of the product are words, and it is cut for more than one thread. -/
structure Splits (p : Banding) (s : Shape) : Prop where
  a_word : s.m * s.k < wordLimit
  b_word : s.k * s.n < wordLimit
  c_word : s.m * s.n < wordLimit
  rows_pos : 0 < s.m
  cols_pos : 0 < s.n
  threads_ne_one : p.threads s ≠ 1

namespace Splits

/-! ## Threads and rows -/

theorem two_le_threads (h : p.Splits s) : 2 ≤ p.threads s := by
  have hone := one_le_threads p s
  have hne := h.threads_ne_one
  omega

theorem threads_le_maxThreads (p : Banding) (s : Shape) : p.threads s ≤ p.maxThreads := by
  unfold threads
  split
  · exact p.one_le_maxThreads
  · exact Nat.min_le_right _ _

/-- Enough operations to be cut are no more than a word can count. -/
theorem minFlops_lt (h : p.Splits s) : p.minFlops < wordLimit := by
  have hle : s.flops ≤ wordLimit - 1 := Nat.min_le_right _ _
  have hcut : ¬ s.flops < p.minFlops := fun hlt => h.threads_ne_one (if_pos hlt)
  have hword : 0 < wordLimit := by decide
  omega

theorem threads_mul_minRows_le (h : p.Splits s) : p.threads s * p.minRows ≤ s.m := by
  have htwo := h.two_le_threads
  have hle : p.threads s ≤ s.m / p.minRows := by
    unfold threads at htwo ⊢
    split at htwo
    case isTrue => omega
    case isFalse hflops =>
      rw [if_neg hflops]
      omega
  exact Nat.le_trans (Nat.mul_le_mul_right _ hle) (Nat.div_mul_le_self _ _)

theorem lt_rowsPerBand_iff (p : Banding) (s : Shape) {i : Nat} :
    i < p.rowsPerBand s ↔ i * p.threads s < s.m :=
  lt_ceil_iff (one_le_threads p s)

theorem minRows_le_rowsPerBand (h : p.Splits s) : p.minRows ≤ p.rowsPerBand s := by
  have hmin := p.one_le_minRows
  have htwo := h.two_le_threads
  have hle := h.threads_mul_minRows_le
  have hpos := h.rows_pos
  have hlast : p.minRows - 1 < p.rowsPerBand s := by
    rw [lt_rowsPerBand_iff, Nat.mul_comm, Nat.mul_sub_one]
    omega
  omega

/-- Not all rows are in the first band. -/
theorem rowsPerBand_lt (h : p.Splits s) : p.rowsPerBand s < s.m := by
  have hmin := p.one_le_minRows
  have htwo := h.two_le_threads
  have hrows : 2 ≤ s.m := calc
    2 ≤ p.threads s * p.minRows := Nat.mul_le_mul htwo hmin
    _ ≤ s.m := h.threads_mul_minRows_le
  have hlast : ¬ s.m - 1 < p.rowsPerBand s := by
    rw [lt_rowsPerBand_iff]
    have hdouble := Nat.mul_le_mul_left (s.m - 1) htwo
    omega
  omega

/-! ## Rows of one band -/

/-- As many rows as planned, where that many are left, and else all that are left over. -/
theorem rows_band (p : Banding) {i : Nat} (hi : i * p.rowsPerBand s < s.m) :
    (p.band s i).rows =
      if (i + 1) * p.rowsPerBand s ≤ s.m then p.rowsPerBand s else s.m % p.rowsPerBand s := by
  rw [band, Nat.succ_mul]
  split
  case isTrue hle => exact Nat.min_eq_left (by omega)
  case isFalse hlt =>
    have hrest : s.m - i * p.rowsPerBand s < p.rowsPerBand s := by omega
    have hmod : s.m % p.rowsPerBand s = s.m - i * p.rowsPerBand s := calc
      s.m % p.rowsPerBand s
          = (s.m - i * p.rowsPerBand s + i * p.rowsPerBand s) % p.rowsPerBand s := by
            rw [Nat.sub_add_cancel (Nat.le_of_lt hi)]
      _ = s.m - i * p.rowsPerBand s := by
            rw [Nat.add_mul_mod_self_right, Nat.mod_eq_of_lt hrest]
    rw [hmod]
    exact Nat.min_eq_right (by omega)

/-- All bands have the least number of rows exactly where the last one has. -/
theorem tall_iff (h : p.Splits s) :
    (∀ i, i * p.rowsPerBand s < s.m → p.minRows ≤ (p.band s i).rows) ↔
      s.m % p.rowsPerBand s = 0 ∨ p.minRows ≤ s.m % p.rowsPerBand s := by
  have hdiv := Nat.div_add_mod' s.m (p.rowsPerBand s)
  have hmod := Nat.mod_lt s.m (rowsPerBand_pos (p := p) h.rows_pos)
  constructor
  · intro htall
    by_cases hzero : s.m % p.rowsPerBand s = 0
    · exact .inl hzero
    · -- What is left over makes up the band after all the full ones.
      have hlast : s.m / p.rowsPerBand s * p.rowsPerBand s < s.m := by omega
      have hrows := rows_band p hlast
      rw [if_neg (by rw [Nat.succ_mul]; omega)] at hrows
      exact .inr (hrows ▸ htall _ hlast)
  · intro hrest i hi
    rw [rows_band p hi]
    split
    case isTrue => exact h.minRows_le_rowsPerBand
    case isFalse hshort =>
      refine hrest.resolve_left fun hzero => hshort ?_
      -- With nothing left over the full bands are all there are.
      rw [hzero, Nat.add_zero] at hdiv
      rw [← hdiv] at hi ⊢
      exact Nat.mul_le_mul_right _ (Nat.lt_of_mul_lt_mul_right hi)

/-- The plan: more than one band, and as many rows as there should be in all but the last. -/
theorem plan (h : p.Splits s) : ∃ bands, p.bands s = .ok bands ∧ 1 < bands.length ∧
    (∀ band ∈ bands, band.firstRow + band.rows < s.m → p.minRows ≤ band.rows) ∧
    ((∀ band ∈ bands, p.minRows ≤ band.rows) ↔
      s.m % p.rowsPerBand s = 0 ∨ p.minRows ≤ s.m % p.rowsPerBand s) := by
  have hpos : 0 < p.rowsPerBand s := rowsPerBand_pos h.rows_pos
  refine ⟨_, bands_eq h.rows_pos h.cols_pos h.c_word, ?_, ?_, ?_⟩
  · rw [List.length_map, List.length_range, lt_ceil_iff hpos, Nat.one_mul]
    exact h.rowsPerBand_lt
  · intro cut hcut hnotLast
    obtain ⟨i, -, rfl⟩ := List.mem_map.1 hcut
    have hmin := h.minRows_le_rowsPerBand
    simp only [band] at hnotLast ⊢
    omega
  · rw [← h.tall_iff]
    simp only [List.mem_map, List.mem_range, lt_ceil_iff hpos]
    constructor
    · intro htall i hi
      exact htall _ ⟨i, hi, rfl⟩
    · rintro htall _ ⟨i, hi, rfl⟩
      exact htall i hi

/-! ## Tall bands -/

/-- Two threads share any rows so that both have enough. -/
theorem tall_of_two_threads (h : p.Splits s) (htwo : p.threads s = 2) :
    s.m % p.rowsPerBand s = 0 ∨ p.minRows ≤ s.m % p.rowsPerBand s := by
  have hle := h.threads_mul_minRows_le
  have hhalf : p.rowsPerBand s = (s.m + 1) / 2 := by simp [rowsPerBand, htwo]
  rw [htwo] at hle
  obtain ⟨half, heven | hodd⟩ : ∃ half, s.m = half * 2 ∨ s.m = half + 1 + half :=
    ⟨s.m / 2, by omega⟩
  · left
    have hrows : p.rowsPerBand s = half := by omega
    rw [hrows, heven, Nat.mul_mod_right]
  · right
    have hrows : p.rowsPerBand s = half + 1 := by omega
    rw [hrows, hodd, Nat.add_mod_left, Nat.mod_eq_of_lt (Nat.lt_succ_self half)]
    omega

/-- Where a word cannot count one row more than three bands of the least height have, three such bands
are the most there can be. -/
theorem tall_of_many_rows (h : p.Splits s) (hword : wordLimit ≤ 3 * p.minRows + 1) :
    s.m % p.rowsPerBand s = 0 ∨ p.minRows ≤ s.m % p.rowsPerBand s := by
  have htwo := h.two_le_threads
  have hle := h.threads_mul_minRows_le
  have hm : s.m < wordLimit := Nat.lt_of_le_of_lt (Nat.le_mul_of_pos_right _ h.cols_pos) h.c_word
  rcases Nat.lt_or_ge 2 (p.threads s) with hthree | hsmall
  · left
    have hrows : 3 * p.minRows ≤ s.m := Nat.le_trans (Nat.mul_le_mul_right _ hthree) hle
    have hmin := p.one_le_minRows
    have ht : p.threads s = 3 := by
      have hfour : ¬ 4 ≤ p.threads s := fun hfour => by
        have := Nat.mul_le_mul_right p.minRows hfour
        omega
      omega
    have hband : p.rowsPerBand s = p.minRows := by
      simp only [rowsPerBand, ht]
      omega
    have hexact : s.m = 3 * p.minRows := by omega
    rw [hband, hexact, Nat.mul_mod_left]
  · exact h.tall_of_two_threads (by omega)

end Splits

/-! ## Short bands -/

/-- Over as long a sum as a word can count, any number of rows takes more operations than a word can
count. -/
theorem flops_longest {m : Nat} (hpos : 0 < m) (hword : m < wordLimit) :
    (⟨m, 1, (wordLimit - 1) / m⟩ : Shape).flops = wordLimit - 1 := by
  have hlt : wordLimit - 1 < m * ((wordLimit - 1) / m) + m := by
    rw [Nat.mul_comm]
    exact Nat.lt_div_mul_add hpos
  have hself : m ≤ m * ((wordLimit - 1) / m) :=
    Nat.le_mul_of_pos_right m (Nat.div_pos (Nat.le_sub_one_of_lt hword) hpos)
  simp only [Shape.flops_eq, Nat.mul_one]
  omega

/-- One row more than three bands of the least height have. The first two of the three bands have a row
more than that, and the last has one less. -/
theorem exists_short_band (hthreads : 3 ≤ p.maxThreads) (hrows : 2 ≤ p.minRows)
    (hflops : p.minFlops < wordLimit) (hword : 3 * p.minRows + 1 < wordLimit) :
    ∃ s, p.Splits s ∧ s.m % p.rowsPerBand s = p.minRows - 1 := by
  let m := 3 * p.minRows + 1
  let s : Shape := ⟨m, 1, (wordLimit - 1) / m⟩
  have hfull : s.flops = wordLimit - 1 := flops_longest (Nat.succ_pos _) hword
  have hthree : m / p.minRows = 3 := Nat.div_eq_of_lt_le (by omega) (by omega)
  have ht : p.threads s = 3 := by
    rw [threads, if_neg (by omega)]
    change min (max (m / p.minRows) 1) p.maxThreads = 3
    omega
  have hband : p.rowsPerBand s = p.minRows + 1 := by
    simp only [rowsPerBand, ht, s, m]
    omega
  have hlong : m * ((wordLimit - 1) / m) < wordLimit :=
    Nat.lt_of_le_of_lt (Nat.mul_div_le _ _) (by decide)
  refine ⟨s, ⟨hlong, ?_, ?_, Nat.succ_pos _, Nat.one_pos, by omega⟩, ?_⟩
  · exact Nat.lt_of_le_of_lt (Nat.mul_le_mul_left _ (Nat.succ_pos _)) (Nat.mul_comm m _ ▸ hlong)
  · exact (Nat.mul_one m).symm ▸ hword
  · have hsplit : m = p.minRows - 1 + 2 * (p.minRows + 1) := by omega
    rw [hband]
    change m % (p.minRows + 1) = _
    rw [hsplit, Nat.add_mul_mod_self_right, Nat.mod_eq_of_lt (by omega)]

/-- A cut product has more than one band, and all but the last have the least number of rows. The last
has it too exactly where nothing is left over for it, or enough. So all bands of all products have it
just with a least number of one, or for two threads at most; or where a word cannot count the
operations it takes to be cut, or the rows it takes to go wrong. -/
theorem band_heights (p : Banding) :
    (∀ s, p.Splits s → ∃ bands, p.bands s = .ok bands ∧ 1 < bands.length ∧
        (∀ band ∈ bands, band.firstRow + band.rows < s.m → p.minRows ≤ band.rows) ∧
        ((∀ band ∈ bands, p.minRows ≤ band.rows) ↔
          s.m % p.rowsPerBand s = 0 ∨ p.minRows ≤ s.m % p.rowsPerBand s)) ∧
      ((∀ s bands, p.Splits s → p.bands s = .ok bands → ∀ band ∈ bands, p.minRows ≤ band.rows) ↔
        p.minRows = 1 ∨ p.maxThreads ≤ 2 ∨ wordLimit ≤ p.minFlops ∨
          wordLimit ≤ 3 * p.minRows + 1) := by
  refine ⟨fun s hs => hs.plan, fun htall => ?_, fun hsafe s bands hs hbands => ?_⟩
  · apply Classical.byContradiction
    intro hunsafe
    have hmin := p.one_le_minRows
    obtain ⟨s, hs, hrest⟩ := exists_short_band (p := p) (by omega) (by omega) (by omega) (by omega)
    obtain ⟨bands, hbands, -, -, hiff⟩ := hs.plan
    have hlast := hiff.1 (htall s bands hs hbands)
    omega
  · obtain ⟨bands', hbands', -, -, hiff⟩ := hs.plan
    obtain rfl := Except.ok.inj (hbands'.symm.trans hbands)
    refine hiff.2 ?_
    rcases hsafe with hone | htwo | hflops | hrows
    · omega
    · have hle := Splits.threads_le_maxThreads p s
      have hmany := hs.two_le_threads
      exact hs.tall_of_two_threads (by omega)
    · exact absurd hs.minFlops_lt (Nat.not_lt.2 hflops)
    · exact hs.tall_of_many_rows hrows

/-- Three threads and the usual cut-offs, at the fewest rows for which a band is short. -/
theorem band_heights_three_threads :
    let p := Banding.ofThreads 3
    let s : Shape := ⟨49, 1, 20409⟩
    p.Splits s ∧ ∃ bands, p.bands s = .ok bands ∧ 1 < bands.length ∧
      (∀ band ∈ bands, band.firstRow + band.rows < 49 → 16 ≤ band.rows) ∧
      ¬ ∀ band ∈ bands, 16 ≤ band.rows := by
  intro p s
  have hs : p.Splits s := ⟨by decide, by decide, by decide, by decide, by decide, by decide⟩
  obtain ⟨bands, hbands, hmany, hfull, hiff⟩ := (band_heights p).1 s hs
  exact ⟨hs, bands, hbands, hmany, hfull, fun htall => absurd (hiff.1 htall) (by decide)⟩

/-- Bands of 17, 17 and 15 rows where each should have 16, and of three, three and one where each should
have two. -/
theorem last_band_short :
    let usual := Banding.ofThreads 3
    let own := (Banding.ofThreads 3).withSplit 0 2
    (usual.Splits ⟨49, 1, 20409⟩ ∧ usual.minRows = 16 ∧
      usual.bands ⟨49, 1, 20409⟩ = .ok [⟨0, 17⟩, ⟨17, 17⟩, ⟨34, 15⟩]) ∧
    (own.Splits ⟨7, 1, 1⟩ ∧ own.minRows = 2 ∧
      own.bands ⟨7, 1, 1⟩ = .ok [⟨0, 3⟩, ⟨3, 3⟩, ⟨6, 1⟩]) ∧
    ¬ ∀ (p : Banding) (s : Shape) (bands : List Band), p.Splits s → p.bands s = .ok bands →
      ∀ band ∈ bands, p.minRows ≤ band.rows := by
  intro usual own
  have husual : usual.Splits ⟨49, 1, 20409⟩ :=
    ⟨by decide, by decide, by decide, by decide, by decide, by decide⟩
  have hown : own.Splits ⟨7, 1, 1⟩ :=
    ⟨by decide, by decide, by decide, by decide, by decide, by decide⟩
  have husualBands : usual.bands ⟨49, 1, 20409⟩ = .ok [⟨0, 17⟩, ⟨17, 17⟩, ⟨34, 15⟩] :=
    (bands_eq (p := usual) husual.rows_pos husual.cols_pos husual.c_word).trans (congrArg Except.ok (by decide))
  have hbands : own.bands ⟨7, 1, 1⟩ = .ok [⟨0, 3⟩, ⟨3, 3⟩, ⟨6, 1⟩] :=
    (bands_eq (p := own) hown.rows_pos hown.cols_pos hown.c_word).trans (congrArg Except.ok (by decide))
  refine ⟨⟨husual, rfl, husualBands⟩, ⟨hown, rfl, hbands⟩, fun hall => ?_⟩
  exact absurd (hall own _ _ hown hbands ⟨6, 1⟩ (by simp)) (by decide)

end DenseMatmul.Banding
