import DenseMatmul.Proofs.Acceptance
import DenseMatmul.Proofs.Order
/-!
# Modes of comparison

The mode of a run decides which elements match and nothing else: what the candidate leaves, what is
counted of it and the largest difference are the same in every mode. And modes are ordered. Equal bits
match under every tolerance, and a tolerance whose bounds are no smaller accepts what the other accepts
(`Tolerance.accepts_mono`). Of its three conditions only the relative one multiplies, the larger of
two finite numbers by the bound: where that number is zero, both are, and they match as equals.
-/

namespace DenseMatmul

/-! ## Tolerances -/

namespace Tolerance

variable {t t' : Tolerance} {x y : Single}

/-- No bound of `t'` is smaller than that of `t`, and those that could be a NaN are none. -/
structure AtMost (t t' : Tolerance) : Prop where
  abs : t.abs.atMost t'.abs
  rel : t.rel.atMost t'.rel
  ulps : t.ulps ≤ t'.ulps

/-- The larger absolute value is no negative number. It is zero only for two zeros. -/
theorem larger_spec (hx : x.isFinite) (hy : y.isFinite) :
    (larger x y).isFinite ∧ (larger x y).isNegative = false ∧
      ((larger x y).magnitude.toNat = 0 → x.equal y) := by
  have hequal : x.magnitude.toNat = 0 → y.magnitude.toNat = 0 → x.equal y := by
    intro hzero hzero'
    simp [Single.equal, Single.isNaN_of_isFinite hx, Single.isNaN_of_isFinite hy, Single.place,
      hzero, hzero']
  have hatMost : y.abs.atMost x.abs ↔ y.magnitude.toNat ≤ x.magnitude.toNat :=
    Single.abs_atMost_abs_iff (Single.isNaN_of_isFinite hy) (Single.isNaN_of_isFinite hx)
  unfold larger
  split
  case isTrue h =>
    rw [hatMost] at h
    rw [Single.isFinite_abs, Single.magnitude_abs]
    exact ⟨hx, x.isNegative_abs, fun hzero => hequal hzero (by omega)⟩
  case isFalse h =>
    rw [hatMost] at h
    rw [Single.isFinite_abs, Single.magnitude_abs]
    exact ⟨hy, y.isNegative_abs, fun hzero => hequal (by omega) hzero⟩

theorem absClose_mono (h : t.AtMost t') (hclose : t.absClose x y) : t'.absClose x y :=
  Single.atMost_trans hclose h.abs

theorem relClose_mono (h : t.AtMost t') (hx : x.isFinite) (hy : y.isFinite)
    (hclose : t.relClose x y) : t'.relClose x y := by
  simp only [relClose, Bool.or_eq_true] at hclose ⊢
  rcases hclose with (hequal | habs) | hrel
  · exact .inl (.inl hequal)
  · exact .inl (.inr (absClose_mono h habs))
  · obtain ⟨hfinite, hsign, hzero⟩ := larger_spec hx hy
    rcases Nat.eq_zero_or_pos (larger x y).magnitude.toNat with hnone | hpos
    · exact .inl (.inl (hzero hnone))
    · exact .inr (Single.atMost_trans hrel (Single.mul_atMost hsign hpos hfinite h.rel))

theorem ulpsClose_mono (h : t.AtMost t') (hclose : t.ulpsClose x y) : t'.ulpsClose x y := by
  simp only [ulpsClose, Bool.or_eq_true, Bool.and_eq_true, decide_eq_true_eq] at hclose ⊢
  rcases hclose with habs | ⟨hsign, hsteps⟩
  · exact .inl (absClose_mono h habs)
  · exact .inr ⟨hsign, hsteps.trans h.ulps⟩

/-- A tolerance with larger bounds accepts whatever the other accepts. -/
theorem accepts_mono (h : t.AtMost t') (haccepts : t.accepts x y) : t'.accepts x y := by
  unfold accepts at haccepts ⊢
  split
  case isTrue hnan => rwa [if_pos hnan] at haccepts
  case isFalse hnan =>
    rw [if_neg hnan] at haccepts
    split
    case isTrue hinfinite => rwa [if_pos hinfinite] at haccepts
    case isFalse hinfinite =>
      rw [if_neg hinfinite] at haccepts
      simp only [Bool.or_eq_true, not_or, Bool.not_eq_true] at hnan hinfinite
      have hx := Single.isFinite_of_not hnan.1 hinfinite.1
      have hy := Single.isFinite_of_not hnan.2 hinfinite.2
      simp only [Bool.or_eq_true] at haccepts ⊢
      rcases haccepts with (habs | hrel) | hulps
      · exact .inl (.inl (absClose_mono h habs))
      · exact .inl (.inr (relClose_mono h hx hy hrel))
      · exact .inr (ulpsClose_mono h hulps)

end Tolerance

/-! ## Modes -/

/-- The second mode accepts every pair that the first accepts. -/
inductive Mode.Refines : Mode → Mode → Prop
  | bits (t : Tolerance) : Refines .bitExact (.within t)
  | bounds {t t' : Tolerance} (h : t.AtMost t') : Refines (.within t) (.within t')

theorem Mode.Refines.accepts {mode mode' : Mode} (h : mode.Refines mode') {e a : Single}
    (haccepts : mode.accepts e a) : mode'.accepts e a := by
  cases h with
  | bits t =>
    obtain rfl : e = a := of_decide_eq_true haccepts
    exact t.accepts_self e
  | bounds h => exact Tolerance.accepts_mono h haccepts

namespace Comparison

variable {mode mode' : Mode} {expected actual : Buffer}

theorem mem_mismatches_iff {m : Mismatch} : m ∈ (Comparison.of mode expected actual).mismatches ↔
    expected[m.index]? = some m.expected ∧ actual[m.index]? = some m.actual ∧
      ¬ mode.accepts m.expected m.actual := by
  simp only [Comparison.of, List.mem_filterMap]
  constructor
  · rintro ⟨⟨⟨e, a⟩, i⟩, hpair, hm⟩
    obtain ⟨he, ha⟩ := mem_pairs_iff.1 hpair
    dsimp only at hm
    split at hm
    · cases hm
    · obtain rfl := Option.some.inj hm
      exact ⟨he, ha, by assumption⟩
  · rintro ⟨he, ha, hrejects⟩
    exact ⟨((m.expected, m.actual), m.index), mem_pairs_iff.2 ⟨he, ha⟩, if_neg hrejects⟩

theorem mismatches_subset (h : mode.Refines mode') :
    (Comparison.of mode' expected actual).mismatches ⊆
      (Comparison.of mode expected actual).mismatches := by
  intro m hm
  obtain ⟨he, ha, hrejects⟩ := mem_mismatches_iff.1 hm
  exact mem_mismatches_iff.2 ⟨he, ha, fun haccepts => hrejects (h.accepts haccepts)⟩

theorem isMatch_mono (h : mode.Refines mode')
    (hmatch : (Comparison.of mode expected actual).isMatch) :
    (Comparison.of mode' expected actual).isMatch := by
  obtain ⟨hsize, haccepts⟩ := isMatch_iff.1 hmatch
  exact isMatch_iff.2 ⟨hsize, fun i e a he ha => h.accepts (haccepts i e a he ha)⟩

end Comparison

namespace Conformance

/-! ## Cases and runs -/

theorem passed_mono {mode mode' : Mode} (h : mode.Refines mode') {sentinel : Single} {s : Shape}
    {length : Nat} {expected actual : Buffer}
    (hpassed : (judge mode sentinel s length expected actual).passed) :
    (judge mode' sentinel s length expected actual).passed := by
  simp only [Case.passed, judge, Bool.and_eq_true] at hpassed ⊢
  obtain ⟨⟨hmatch, hunwritten⟩, hwrites⟩ := hpassed
  exact ⟨⟨Comparison.isMatch_mono h hmatch, hunwritten⟩, hwrites⟩

/-- A run that gives a report gives one in every mode, with the same cases but for what matches: the
shapes, the counts of elements left out and of writes to the guard and the largest difference are the
same. If the second mode accepts what the first accepts, a case that passes passes there too, and no
element fails to match there that matches here. Equal bits are accepted by every tolerance, whatever
its bounds, and a tolerance by every one whose bounds are no smaller and no NaN. -/
theorem report_mono {h : Harness} {candidate : Kernel} {report : Report} (mode : Mode)
    (hrun : (h.run candidate).result = .ok report) :
    ∃ report', (({ h with mode } : Harness).run candidate).result = .ok report' ∧
      report'.cases.length = report.cases.length ∧
      ∀ (i : Nat) (found found' : Case), report.cases[i]? = some found →
        report'.cases[i]? = some found' →
        (found'.shape = found.shape ∧ found'.unwritten = found.unwritten ∧
          found'.guardWrites = found.guardWrites ∧
          found'.comparison.maxAbsDiff = found.comparison.maxAbsDiff) ∧
        (h.mode.Refines mode → (found.passed → found'.passed) ∧
          found'.comparison.mismatches ⊆ found.comparison.mismatches) := by
  obtain ⟨hall, rfl⟩ := Harness.run_eq_ok_iff.1 hrun
  refine ⟨_, Harness.run_eq_ok_iff.2 ⟨hall, rfl⟩, ?_, ?_⟩
  · simp only [List.length_mapIdx]
  intro i found found' hfound hfound'
  simp only [List.getElem?_mapIdx, Option.map_eq_some_iff] at hfound hfound'
  obtain ⟨s, hs, rfl⟩ := hfound
  obtain ⟨s', hs', rfl⟩ := hfound'
  obtain rfl : s = s' := Option.some.inj (hs.symm.trans hs')
  refine ⟨⟨rfl, rfl, rfl, rfl⟩, fun hrefines => ⟨passed_mono hrefines, ?_⟩⟩
  exact Comparison.mismatches_subset hrefines

/-- From a bound of minus infinity to one of infinity, for two bands and a NaN for a sentinel. -/
theorem report_mono_infinite_bounds :
    let candidate := Kernel.rowParallel ((Banding.ofThreads 2).withSplit 0 0)
    let h : Harness :=
      { seed := 7, shapes := [⟨2, 1, 1⟩], mode := .within ⟨.zero, ⟨0xff800000⟩, 0⟩,
        sentinel := ⟨0xffc00001⟩, shapes_ne_nil := by decide }
    let mode := Mode.within ⟨.one, .infinity, 4⟩
    ∃ report report', (h.run candidate).result = .ok report ∧
      (({ h with mode } : Harness).run candidate).result = .ok report' ∧ h.mode.Refines mode ∧
      ∀ (i : Nat) (found found' : Case), report.cases[i]? = some found →
        report'.cases[i]? = some found' → (found.passed → found'.passed) ∧
          found'.comparison.mismatches ⊆ found.comparison.mismatches := by
  intro candidate h mode
  have hroom : ∀ s ∈ h.shapes, HasRoom s := by
    intro s hs
    obtain rfl : s = ⟨2, 1, 1⟩ := List.mem_singleton.1 hs
    exact ⟨by decide, by decide, by decide⟩
  obtain ⟨report, hrun⟩ := (Harness.run_faithful (Kernel.faithful_rowParallel _)).2 hroom
  have hrefines : h.mode.Refines mode := .bounds ⟨by decide, by decide, by decide⟩
  obtain ⟨report', hrun', -, hcases⟩ := report_mono mode hrun
  exact ⟨report, report', hrun, hrun', hrefines, fun i found found' hfound hfound' =>
    (hcases i found found' hfound hfound').2 hrefines⟩

end Conformance

end DenseMatmul
