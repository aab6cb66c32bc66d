import DenseMatmul.Proofs.Differences
import DenseMatmul.Proofs.Modes
/-!
# What a comparison reports

One pass over the pairs makes two things: the list of those that do not match, and the largest difference
so far. The list keeps the order of the pairs, so its indices go up. The largest difference starts at
positive zero and is one of the differences from the first number among them on; a difference that is no
number, as of two infinities or with a NaN, is passed over and loses nothing (`Largest.push`).
-/

namespace DenseMatmul

/-! ## The larger of two -/

namespace Single

variable {x y : Single}

theorem atMost_refl (h : x.isNaN = false) : x.atMost x := atMost_iff.2 ⟨h, h, Int.le_refl _⟩

theorem atMost_of_not_atMost (hx : x.isNaN = false) (hy : y.isNaN = false) (h : ¬ x.atMost y) :
    y.atMost x := by
  rw [atMost_iff] at h ⊢
  refine ⟨hy, hx, ?_⟩
  by_contra hle
  exact h ⟨hx, hy, by omega⟩

/-- To a number, what is no number adds nothing. -/
theorem max_of_isNaN (hx : x.isNaN = false) (hy : y.isNaN) : x.max y = x := by
  simp [max, hx, hy]

theorem max_of_atMost (h : x.atMost y) : x.max y = y := by
  obtain ⟨hx, hy, -⟩ := atMost_iff.1 h
  simp [max, hx, hy, h]

theorem max_of_not_atMost (hx : x.isNaN = false) (h : ¬ x.atMost y) : x.max y = x := by
  unfold max
  rw [hx]
  simp [h]

/-- Only zeros are at most zero in absolute value. -/
theorem abs_eq_zero_of_atMost (h : x.abs.atMost .zero) : x.abs = .zero := by
  obtain ⟨-, -, hle⟩ := atMost_iff.1 h
  have hzero : Single.zero.place = 0 := rfl
  rw [place_abs, hzero] at hle
  have hmagnitude : x.magnitude = 0 := UInt32.toNat_inj.1 (by simpa using hle)
  rw [abs, hmagnitude]
  rfl

end Single

namespace Comparison

/-! ## The largest difference -/

/-- `largest` is the largest number among `start` and `differences`. -/
structure Largest (start : Single) (differences : List Single) (largest : Single) : Prop where
  isNaN : largest.isNaN = false
  attained : largest = start ∨ largest ∈ differences
  start_le : start.atMost largest
  le : ∀ d ∈ differences, d.isNaN = false → d.atMost largest

/-- One more difference. -/
theorem Largest.push {start largest d : Single} {differences : List Single}
    (h : Largest start differences largest) :
    Largest start (differences ++ [d]) (largest.max d) := by
  have hkept : d.isNaN = true ∨ ¬ largest.atMost d → Largest start (differences ++ [d]) largest := by
    intro hd
    refine ⟨h.isNaN, h.attained.imp_right (List.mem_append_left _), h.start_le, fun d' hd' hnan => ?_⟩
    rcases List.mem_append.1 hd' with hold | hnew
    · exact h.le d' hold hnan
    · obtain rfl := List.mem_singleton.1 hnew
      exact Single.atMost_of_not_atMost h.isNaN hnan (hd.resolve_left (by simp [hnan]))
  cases hnan : d.isNaN with
  | true =>
    rw [Single.max_of_isNaN h.isNaN hnan]
    exact hkept (.inl hnan)
  | false =>
    by_cases hle : largest.atMost d
    · -- The new difference takes over, and with it every bound on the old one.
      rw [Single.max_of_atMost hle]
      refine ⟨hnan, .inr (by simp), Single.atMost_trans h.start_le hle, fun d' hd' hnan' => ?_⟩
      rcases List.mem_append.1 hd' with hold | hnew
      · exact Single.atMost_trans (h.le d' hold hnan') hle
      · obtain rfl := List.mem_singleton.1 hnew
        exact Single.atMost_refl hnan
    · rw [Single.max_of_not_atMost h.isNaN hle]
      exact hkept (.inr hle)

theorem largest_foldl {start : Single} (h : start.isNaN = false) (differences : List Single) :
    Largest start differences (differences.foldl Single.max start) := by
  induction differences using List.reverseRecOn with
  | nil => exact ⟨h, .inl rfl, Single.atMost_refl h, nofun⟩
  | append_singleton differences d ih =>
    rw [List.foldl_append]
    exact ih.push

/-- The absolute differences of the pairs, in order. -/
def differences (expected actual : Buffer) : List Single :=
  (expected.zip actual).toList.map fun (e, a) => (e - a).abs

/-- The elements at place `i` are `d` apart, which is a number. -/
def Apart (expected actual : Buffer) (i : Nat) (d : Single) : Prop :=
  ∃ e a, expected[i]? = some e ∧ actual[i]? = some a ∧ (e - a).abs = d ∧ d.isNaN = false

variable {mode : Mode} {expected actual : Buffer} {d : Single}

theorem mem_differences_iff : d ∈ differences expected actual ↔
    ∃ (i : Nat) (e a : Single), expected[i]? = some e ∧ actual[i]? = some a ∧ (e - a).abs = d := by
  rw [differences, List.mem_map]
  constructor
  · rintro ⟨⟨e, a⟩, hpair, hd⟩
    obtain ⟨i, hi⟩ := List.mem_iff_getElem?.1 hpair
    obtain ⟨he, ha⟩ := mem_pairs_iff.1 (List.mem_zipIdx_iff_getElem?.2 hi)
    exact ⟨i, e, a, he, ha, hd⟩
  · rintro ⟨i, e, a, he, ha, hd⟩
    have hi := List.mem_zipIdx_iff_getElem?.1 (mem_pairs_iff.2 ⟨he, ha⟩)
    exact ⟨(e, a), List.mem_iff_getElem?.2 ⟨i, hi⟩, hd⟩

theorem exists_apart_iff : (∃ i, Apart expected actual i d) ↔
    d ∈ differences expected actual ∧ d.isNaN = false := by
  rw [mem_differences_iff]
  constructor
  · rintro ⟨i, e, a, he, ha, hd, hnan⟩
    exact ⟨⟨i, e, a, he, ha, hd⟩, hnan⟩
  · rintro ⟨⟨i, e, a, he, ha, hd⟩, hnan⟩
    exact ⟨i, e, a, he, ha, hd, hnan⟩

theorem isNegative_of_mem (h : d ∈ differences expected actual) : d.isNegative = false := by
  obtain ⟨i, e, a, -, -, rfl⟩ := mem_differences_iff.1 h
  exact Single.isNegative_abs _

theorem eq_zero_of_mem_atMost (h : d ∈ differences expected actual) (hle : d.atMost .zero) :
    d = .zero := by
  obtain ⟨i, e, a, -, -, rfl⟩ := mem_differences_iff.1 h
  exact Single.abs_eq_zero_of_atMost hle

/-- Between equal buffers a difference is zero, or no number. -/
theorem eq_zero_of_mem_self {c : Buffer} (h : d ∈ differences c c) (hnan : d.isNaN = false) :
    d = .zero := by
  obtain ⟨i, e, a, he, ha, rfl⟩ := mem_differences_iff.1 h
  obtain rfl : e = a := Option.some.inj (he.symm.trans ha)
  by_cases hfinite : e.isFinite
  · rw [Single.sub_self_of_isFinite hfinite]
    rfl
  · rw [Single.sub_self_of_not_isFinite hfinite] at hnan
    cases hnan

theorem largest_maxAbsDiff (mode : Mode) (expected actual : Buffer) :
    Largest .zero (differences expected actual)
      (Comparison.of mode expected actual).maxAbsDiff := by
  have hfold : (Comparison.of mode expected actual).maxAbsDiff =
      (differences expected actual).foldl Single.max .zero := by
    rw [differences, List.foldl_map]
    rfl
  rw [hfold]
  exact largest_foldl rfl _

/-! ## The report -/

/-- Mismatches keep the order of the pairs. -/
theorem mismatches_pairwise (mode : Mode) (expected actual : Buffer) :
    (Comparison.of mode expected actual).mismatches.Pairwise fun m m' => m.index < m'.index := by
  have hplaces : (expected.zip actual).toList.zipIdx.Pairwise fun p p' => p.2 < p'.2 := by
    rw [← List.pairwise_map, List.zipIdx_map_snd]
    exact List.pairwise_lt_range'
  refine hplaces.filterMap _ ?_
  rintro ⟨⟨e, a⟩, i⟩ ⟨⟨e', a'⟩, i'⟩ hlt m hm m' hm'
  dsimp only at hm hm' hlt
  split at hm
  · cases hm
  · split at hm'
    · cases hm'
    · obtain rfl := Option.some.inj hm
      obtain rfl := Option.some.inj hm'
      exact hlt

theorem isMatch_bits : (Comparison.of .bitExact expected actual).isMatch ↔
    expected.map Single.bits = actual.map Single.bits := by
  have hinjective : Function.Injective Single.bits := fun x y h => congrArg Single.mk h
  rw [isMatch_bitExact, Array.map_inj_right hinjective, eq_comm]

/-- A comparison gives both sizes, and of the pairs that the shorter buffer leaves those that its mode
does not accept: each once, at its place and with its very bits, and the places go up. It is a match if
the sizes are equal and every pair is accepted, in the strictest mode if all bits are equal. The largest
difference is that of some pair, and no pair is further apart; it is positive zero where no two elements
are a number apart, and where all bits are equal. -/
theorem comparison_exact (mode : Mode) (expected actual : Buffer) :
    let c := Comparison.of mode expected actual
    (c.expectedSize = expected.size ∧ c.actualSize = actual.size) ∧
      ((∀ m, m ∈ c.mismatches ↔ expected[m.index]? = some m.expected ∧
          actual[m.index]? = some m.actual ∧ ¬ mode.accepts m.expected m.actual) ∧
        c.mismatches.Pairwise fun m m' => m.index < m'.index) ∧
      (c.isMatch ↔ expected.size = actual.size ∧ ∀ (i : Nat) (e a : Single),
        expected[i]? = some e → actual[i]? = some a → mode.accepts e a) ∧
      (mode = .bitExact →
        (c.isMatch ↔ expected.map Single.bits = actual.map Single.bits)) ∧
      (c.maxAbsDiff.isNaN = false ∧ c.maxAbsDiff.isNegative = false) ∧
      ((∃ i d, Apart expected actual i d) → ∃ i, Apart expected actual i c.maxAbsDiff) ∧
      (∀ i d, Apart expected actual i d → d.atMost c.maxAbsDiff) ∧
      ((¬ ∃ i d, Apart expected actual i d) → c.maxAbsDiff = .zero) ∧
      ((Comparison.of .bitExact expected actual).isMatch → c.maxAbsDiff = .zero) := by
  intro c
  have hlargest : Largest .zero (differences expected actual) c.maxAbsDiff :=
    largest_maxAbsDiff mode expected actual
  have hmem : ∀ {d}, (∃ i, Apart expected actual i d) ↔ _ := exists_apart_iff
  refine ⟨⟨rfl, rfl⟩, ⟨fun m => mem_mismatches_iff, mismatches_pairwise mode expected actual⟩,
    isMatch_iff, ?bits, ⟨hlargest.isNaN, ?sign⟩, ?attained, ?le, ?zero, ?matching⟩
  case bits =>
    rintro rfl
    exact isMatch_bits
  case sign =>
    rcases hlargest.attained with hzero | hdiff
    · rw [hzero]
      rfl
    · exact isNegative_of_mem hdiff
  case attained =>
    rintro ⟨i, d, hapart⟩
    obtain ⟨hd, hnan⟩ := hmem.1 ⟨i, hapart⟩
    rcases hlargest.attained with hzero | hdiff
    · -- Nothing was larger than the zero to start from, and so this difference is a zero too.
      have hle := hlargest.le d hd hnan
      rw [hzero] at hle ⊢
      obtain rfl := eq_zero_of_mem_atMost hd hle
      exact ⟨i, hapart⟩
    · exact hmem.2 ⟨hdiff, hlargest.isNaN⟩
  case le =>
    intro i d hapart
    obtain ⟨hd, hnan⟩ := hmem.1 ⟨i, hapart⟩
    exact hlargest.le d hd hnan
  case zero =>
    intro hnone
    refine hlargest.attained.resolve_right fun hdiff => hnone ?_
    obtain ⟨i, hapart⟩ := hmem.2 ⟨hdiff, hlargest.isNaN⟩
    exact ⟨i, _, hapart⟩
  case matching =>
    intro hmatch
    obtain rfl := isMatch_bitExact.1 hmatch
    rcases hlargest.attained with hzero | hdiff
    · exact hzero
    · exact eq_zero_of_mem_self hdiff hlargest.isNaN

/-- Three and one are two apart, between infinities that are no number apart and a NaN. -/
theorem comparison_exact_infinities :
    let expected : Buffer := #[.infinity, ⟨0x40400000⟩, .nan]
    let actual : Buffer := #[.infinity, .one, .zero, .one]
    let c := Comparison.of .bitExact expected actual
    ¬ c.isMatch ∧ Apart expected actual 1 ⟨0x40000000⟩ ∧
      Single.atMost ⟨0x40000000⟩ c.maxAbsDiff ∧ ∃ i, Apart expected actual i c.maxAbsDiff := by
  intro expected actual c
  obtain ⟨-, -, hmatch, -, -, hattained, hle, -, -⟩ := comparison_exact .bitExact expected actual
  have hapart : Apart expected actual 1 ⟨0x40000000⟩ :=
    ⟨⟨0x40400000⟩, .one, rfl, rfl, by decide, by decide⟩
  exact ⟨fun h => absurd (hmatch.1 h).1 (by decide), hapart, hle 1 _ hapart, hattained ⟨1, _, hapart⟩⟩

end Comparison

end DenseMatmul
