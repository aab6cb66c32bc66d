import DenseMatmul.Kernel.Faulty
import DenseMatmul.Proofs.Cases
/-!
# The verdict on a candidate

A case counts three things apart: elements of the output that do not match, elements that still hold
the sentinel, and elements of the guard that no longer do. By the bits, the three together decide
whether the candidate left the very buffer that the reference leaves (`passed_judge`). The count of
the guard can stand for a comparison there because the reference leaves its guard alone, and the count
of sentinels can do no harm because it counts only elements that do not match anyway.
-/

namespace DenseMatmul

/-! ## Comparison -/

theorem Comparison.mem_pairs_iff {x y : Buffer} {e a : Single} {i : Nat} :
    ((e, a), i) ∈ (x.zip y).toList.zipIdx ↔ x[i]? = some e ∧ y[i]? = some a := by
  rw [List.mem_zipIdx_iff_getElem?]
  simp [List.getElem?_zip_eq_some]

/-- Buffers match if they have one length and every pair of elements is accepted. -/
theorem Comparison.isMatch_iff {mode : Mode} {expected actual : Buffer} :
    (Comparison.of mode expected actual).isMatch ↔ expected.size = actual.size ∧
      ∀ (i : Nat) (e a : Single), expected[i]? = some e → actual[i]? = some a → mode.accepts e a := by
  simp only [isMatch, Comparison.of, Bool.and_eq_true, beq_iff_eq, List.isEmpty_iff,
    List.filterMap_eq_nil_iff]
  refine and_congr_right fun _ => ⟨fun h i e a he ha => ?_, ?_⟩
  · have hpair := h _ (mem_pairs_iff.2 ⟨he, ha⟩)
    simpa using hpair
  · rintro h ⟨⟨e, a⟩, i⟩ hmem
    obtain ⟨he, ha⟩ := mem_pairs_iff.1 hmem
    simp [h i e a he ha]

theorem Comparison.isMatch_bitExact {expected actual : Buffer} :
    (Comparison.of .bitExact expected actual).isMatch ↔ actual = expected := by
  rw [isMatch_iff]
  constructor
  · rintro ⟨hsize, h⟩
    refine Array.ext hsize.symm fun i ha he => ?_
    have heq := h i _ _ (Array.getElem?_eq_getElem he) (Array.getElem?_eq_getElem ha)
    exact (of_decide_eq_true heq).symm
  · rintro rfl
    refine ⟨rfl, fun i e a he ha => ?_⟩
    obtain rfl : e = a := Option.some.inj (he.symm.trans ha)
    exact decide_eq_true rfl

namespace Conformance

/-! ## Counts -/

theorem countUnwritten_self (sentinel : Single) (c : Buffer) : countUnwritten sentinel c c = 0 := by
  rw [countUnwritten, Array.countP_eq_zero]
  rintro ⟨e, a⟩ hmem
  obtain ⟨i, hi, hpair⟩ := Array.mem_iff_getElem.1 hmem
  rw [Array.getElem_zip, Prod.mk.injEq] at hpair
  obtain rfl : e = a := hpair.1.symm.trans hpair.2
  simp

theorem mem_guard_iff {out : Buffer} {length : Nat} {x : Single} :
    x ∈ out.extract length out.size ↔ ∃ i, length ≤ i ∧ out[i]? = some x := by
  simp only [Array.mem_iff_getElem?, Array.getElem?_extract, Nat.min_self]
  constructor
  · rintro ⟨i, hi⟩
    split at hi
    · exact ⟨length + i, Nat.le_add_right _ _, hi⟩
    · cases hi
  · rintro ⟨i, hlength, hi⟩
    have hsize : i < out.size := (Array.getElem?_eq_some_iff.1 hi).1
    refine ⟨i - length, ?_⟩
    rwa [if_pos (by omega), Nat.add_sub_cancel' hlength]

theorem countWrites_eq_zero_iff {sentinel : Single} {out : Buffer} {length : Nat} :
    countWrites sentinel (out.extract length out.size) = 0 ↔
      ∀ i x, length ≤ i → out[i]? = some x → x = sentinel := by
  simp only [countWrites, Array.countP_eq_zero, mem_guard_iff, ne_eq, decide_not, Bool.not_eq_true',
    decide_eq_false_iff_not, Classical.not_not]
  exact ⟨fun h i x hi hx => h x ⟨i, hi, hx⟩, fun h x ⟨i, hi, hx⟩ => h i x hi hx⟩

/-- By the bits a case passes exactly if the buffers are equal, where the guard of the expected one
is made of sentinels. -/
theorem passed_judge {sentinel : Single} {s : Shape} {length : Nat} {expected actual : Buffer}
    (hsize : actual.size = expected.size)
    (hguard : ∀ i x, length ≤ i → expected[i]? = some x → x = sentinel) :
    (judge .bitExact sentinel s length expected actual).passed ↔ actual = expected := by
  simp only [Case.passed, judge, Bool.and_eq_true, beq_iff_eq, Comparison.isMatch_bitExact,
    countWrites_eq_zero_iff]
  constructor
  · rintro ⟨⟨houtput, -⟩, hwrites⟩
    refine Array.ext hsize fun i ha he => ?_
    rcases Nat.lt_or_ge i length with hi | hi
    · have hfront := congrArg (·[i]?) houtput
      simpa [Array.getElem?_extract, show i < min length actual.size by omega,
        show i < min length expected.size by omega] using hfront
    · -- Past the output both hold the sentinel, the one by the count and the other as it was.
      rw [hwrites i _ hi (Array.getElem?_eq_getElem ha),
        hguard i _ hi (Array.getElem?_eq_getElem he)]
  · rintro rfl
    exact ⟨⟨rfl, countUnwritten_self ..⟩, hguard⟩

/-! ## Cases -/

/-- The reference leaves the guard of a case as it was. -/
theorem reference_past {s : Shape} (h : HasRoom s) (sentinel : Single) (g : Generator) {p : Nat}
    (hp : s.m * s.n ≤ p) : (callOn .reference sentinel s g).c[p]? = (blank sentinel s)[p]? := by
  rw [(reference_callOn h sentinel g).2]
  exact Reference.product_past hp

theorem passed_verdict {s : Shape} (h : HasRoom s) (sentinel : Single) (candidate : Kernel)
    (g : Generator) :
    (verdict .bitExact sentinel candidate s g).passed ↔
      (callOn candidate sentinel s g).c = (callOn .reference sentinel s g).c :=
  passed_judge (by rw [size_callOn, size_callOn]) fun i x hi hx => by
    rw [reference_past h sentinel g hi] at hx
    exact Array.eq_of_mem_replicate (Array.mem_of_getElem? hx)

theorem ne_iff_differ {x y : Buffer} : x ≠ y ↔ ∃ p : Nat, x[p]? ≠ y[p]? := by
  rw [← Classical.not_forall]
  exact not_congr ⟨fun h _ => by rw [h], fun h => Array.ext_getElem? h⟩

/-- Where a run by the bits gives a report, the case of every shape passes exactly if the candidate
left the buffer, guard included, that the reference leaves. So a candidate that leaves out some
elements of the output and writes some of the guard fails exactly if one of those shows. -/
theorem bitExact_verdict_exact {h : Harness} {candidate : Kernel} {report : Report}
    (hmode : h.mode = .bitExact) (hrun : (h.run candidate).result = .ok report) :
    report.cases.length = h.shapes.length ∧
      ∀ i s found, h.shapes[i]? = some s → report.cases[i]? = some found →
        let left := (callOn candidate h.sentinel s (h.generatorAt i)).c
        let wanted := (callOn .reference h.sentinel s (h.generatorAt i)).c
        found.shape = s ∧ left.size = s.m * s.n + 16 ∧ wanted.size = s.m * s.n + 16 ∧
          (found.passed ↔ left = wanted) ∧
          ∀ skipped written : Nat → Prop,
            (∀ p < s.m * s.n, ¬ skipped p → left[p]? = wanted[p]?) →
            (∀ p, s.m * s.n ≤ p → ¬ written p → left[p]? = (blank h.sentinel s)[p]?) →
            (¬ found.passed ↔ ∃ p, (p < s.m * s.n ∧ skipped p ∨ s.m * s.n ≤ p ∧ written p) ∧
              left[p]? ≠ wanted[p]?) := by
  obtain ⟨hall, rfl⟩ := Harness.run_eq_ok_iff.1 hrun
  refine ⟨List.length_mapIdx, ?_⟩
  intro i s found hs hfound left wanted
  have hroom := (hall i s hs).1
  obtain rfl : verdict .bitExact h.sentinel candidate s (h.generatorAt i) = found := by
    simpa [hs, hmode] using hfound
  have hpassed := passed_verdict hroom h.sentinel candidate (h.generatorAt i)
  refine ⟨rfl, size_callOn .., size_callOn .., hpassed, ?_⟩
  intro skipped written hskipped hwritten
  rw [hpassed, ← ne_eq, ne_iff_differ]
  constructor
  · rintro ⟨p, hdiffer⟩
    refine ⟨p, ?_, hdiffer⟩
    rcases Nat.lt_or_ge p (s.m * s.n) with hp | hp
    · exact .inl ⟨hp, Classical.byContradiction fun hkept => hdiffer (hskipped p hp hkept)⟩
    · refine .inr ⟨hp, Classical.byContradiction fun hkept => hdiffer ?_⟩
      rw [hwritten p hp hkept]
      exact (reference_past hroom h.sentinel (h.generatorAt i) hp).symm
  · rintro ⟨p, -, hdiffer⟩
    exact ⟨p, hdiffer⟩

/-- A kernel that leaves out the second of two elements and writes one of the guard, found by a
sentinel that is a NaN. -/
theorem bitExact_verdict_patched :
    let candidate := Kernel.patched "patched" true [1] [(2, .zero)]
    let h : Harness :=
      { seed := 7, shapes := [⟨1, 2, 1⟩], mode := .bitExact, sentinel := ⟨0xffc00001⟩,
        shapes_ne_nil := by decide }
    ∃ report found, h.mode = .bitExact ∧ (h.run candidate).result = .ok report ∧
      report.cases[0]? = some found ∧ found.shape = ⟨1, 2, 1⟩ ∧ found.passed = false := by
  intro candidate h
  have hroom : HasRoom ⟨1, 2, 1⟩ := ⟨by decide, by decide, by decide⟩
  have hanswer : (callOn candidate h.sentinel ⟨1, 2, 1⟩ (h.generatorAt 0)).answer.result =
      .ok () := by
    rw [← (reference_callOn hroom h.sentinel (h.generatorAt 0)).1]
    simp only [candidate, callOn, Kernel.patched, Reference.multiplyThen]
    split <;> rfl
  obtain ⟨report, hrun⟩ : ∃ report, (h.run candidate).result = .ok report := by
    refine ⟨_, Harness.run_eq_ok_iff.2 ⟨fun i s hs => ?_, rfl⟩⟩
    cases i with
    | zero =>
      obtain rfl : ⟨1, 2, 1⟩ = s := Option.some.inj hs
      exact ⟨hroom, hanswer⟩
    | succ i => cases hs
  obtain ⟨hlength, hcase⟩ := bitExact_verdict_exact rfl hrun
  have hfound := List.getElem?_eq_getElem (show 0 < report.cases.length by rw [hlength]; decide)
  obtain ⟨hshape, -, -, hpassed, -⟩ := hcase 0 ⟨1, 2, 1⟩ _ rfl hfound
  refine ⟨report, _, rfl, hrun, hfound, hshape, ?_⟩
  rw [Bool.eq_false_iff, ne_eq, hpassed]
  decide +kernel

end Conformance

end DenseMatmul
