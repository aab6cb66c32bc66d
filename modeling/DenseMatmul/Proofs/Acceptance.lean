import DenseMatmul.Proofs.Bands
import DenseMatmul.Proofs.Verdict
/-!
# No false alarms

A kernel that leaves what the reference leaves gives a clean report, whatever the plan. Three things
could speak against it: a number that is not accepted for itself, which no mode has
(`Mode.accepts_self`); a sentinel that is taken for an element left out, which is looked for only where
the buffers differ (`countUnwritten_self`); and a guard that the reference itself wrote to, which it
does not (`reference_past`).

That there is a report at all asks less of a kernel: to answer whenever its buffers fit
(`Harness.run_of_dependable`).
-/

namespace DenseMatmul

/-! ## A number against itself -/

/-- Equality of numbers fails a number against itself only for a NaN. -/
theorem Single.equal_self {x : Single} (h : x.isNaN = false) : x.equal x = true := by
  simp [equal, h]

/-- A tolerance accepts every number for itself, whatever its bounds are: negative ones, a NaN and
infinities too. NaNs and infinities are judged by kind, and a number is close to its equal. -/
theorem Tolerance.accepts_self (t : Tolerance) (x : Single) : t.accepts x x = true := by
  unfold accepts
  cases hnan : x.isNaN with
  | true => rfl
  | false =>
    have hequal := Single.equal_self hnan
    have hclose : t.relClose x x = true := by simp [relClose, hequal]
    simp [hequal, hclose]

theorem Mode.accepts_self (mode : Mode) (x : Single) : mode.accepts x x = true := by
  cases mode with
  | bitExact => exact decide_eq_true rfl
  | within t => exact t.accepts_self x

theorem Comparison.isMatch_self (mode : Mode) (c : Buffer) : (Comparison.of mode c c).isMatch := by
  refine isMatch_iff.2 ⟨rfl, fun i e a he ha => ?_⟩
  obtain rfl : e = a := Option.some.inj (he.symm.trans ha)
  exact mode.accepts_self e

theorem Comparison.mismatches_of_isMatch {c : Comparison} (h : c.isMatch) : c.mismatches = [] := by
  simp only [isMatch, Bool.and_eq_true, List.isEmpty_iff] at h
  exact h.2

/-! ## Kernels that answer -/

/-- A kernel that answers whenever its buffers are long enough, and their sizes and lengths are words. -/
def Kernel.Dependable (kernel : Kernel) : Prop :=
  ∀ (s : Shape) (a b c : Buffer), a.size < wordLimit → b.size < wordLimit → c.size < wordLimit →
    s.Fits a.size b.size c.size → (kernel.multiplyInto s a b c).answer.result = .ok ()

/-- A kernel that does what the reference does answers where it does. -/
theorem Kernel.Faithful.dependable {kernel : Kernel} (h : kernel.Faithful) : kernel.Dependable := by
  intro s a b c _ _ _ hfits
  rw [(h s a b c).result]
  exact (Reference.multiplyChecked_of_fits hfits).1

namespace Conformance

/-! ## Cases -/

/-- A case with nothing to tell: it passes, and each of its three findings is empty. -/
structure Case.Clean (c : Case) : Prop where
  passed : c.passed
  mismatches : c.comparison.mismatches = []
  unwritten : c.unwritten = 0
  guardWrites : c.guardWrites = 0

/-- A buffer judged against itself is clean where it ends in sentinels. -/
theorem clean_judge_self {mode : Mode} {sentinel : Single} {s : Shape} {length : Nat} {out : Buffer}
    (hguard : ∀ i x, length ≤ i → out[i]? = some x → x = sentinel) :
    (judge mode sentinel s length out out).Clean := by
  have hmatch := Comparison.isMatch_self mode (out.extract 0 length)
  have hunwritten := countUnwritten_self sentinel (out.extract 0 length)
  have hwrites := countWrites_eq_zero_iff.2 hguard
  refine ⟨?_, Comparison.mismatches_of_isMatch hmatch, hunwritten, hwrites⟩
  simp [Case.passed, judge, hmatch, hunwritten, hwrites]

/-- A dependable kernel answers in every case that has room. -/
theorem callOn_of_dependable {candidate : Kernel} (hc : candidate.Dependable) {s : Shape}
    (h : HasRoom s) (sentinel : Single) (g : Generator) :
    (callOn candidate sentinel s g).answer.result = .ok () := by
  have hblank : (blank sentinel s).size = s.m * s.n + guardLength := Array.size_replicate
  refine hc s _ _ _ ?_ ?_ ?_ (h.fits sentinel g)
  · rw [size_inputA]
    exact h.a_word
  · rw [size_inputB]
    exact h.b_word
  · rw [hblank]
    exact h.guarded_word

theorem clean_verdict {candidate : Kernel} (hf : candidate.Faithful) (mode : Mode) {s : Shape}
    (h : HasRoom s) (sentinel : Single) (g : Generator) :
    (verdict mode sentinel candidate s g).Clean := by
  have hsame : (callOn candidate sentinel s g).c = (callOn .reference sentinel s g).c := (hf ..).c
  rw [verdict, hsame]
  refine clean_judge_self fun i x hi hx => ?_
  rw [reference_past h sentinel g hi] at hx
  exact Array.eq_of_mem_replicate (Array.mem_of_getElem? hx)

/-! ## Runs -/

/-- A dependable kernel gets a report exactly where every shape has room. -/
theorem Harness.run_of_dependable {h : Harness} {candidate : Kernel} (hc : candidate.Dependable) :
    (∃ report, (h.run candidate).result = .ok report) ↔ ∀ s ∈ h.shapes, HasRoom s := by
  simp only [run_eq_ok_iff, List.mem_iff_getElem?]
  constructor
  · rintro ⟨_, hall, -⟩ s ⟨i, hs⟩
    exact (hall i s hs).1
  · intro hroom
    refine ⟨_, fun i s hs => ?_, rfl⟩
    have hi := hroom s ⟨i, hs⟩
    exact ⟨hi, callOn_of_dependable hc hi ..⟩

theorem Harness.run_faithful {h : Harness} {candidate : Kernel} (hf : candidate.Faithful) :
    (∃ report, (h.run candidate).result = .ok report) ↔ ∀ s ∈ h.shapes, HasRoom s :=
  run_of_dependable hf.dependable

/-- The reference and the banded kernels are never reported, whatever the seed, the shapes, the
sentinel and the mode, and in whatever order the bands run. They get a report exactly where the
buffers of every shape have room, and then there is one clean case for each shape. -/
theorem no_false_alarm (h : Harness) {candidate : Kernel}
    (hc : candidate = .reference ∨ (∃ p, candidate = .rowParallel p) ∨
      ∃ (p : Banding) (runBands : List (List Step) → Buffer → Run),
        Step.Schedules runBands ∧ candidate.multiplyInto = p.multiplyBy runBands) :
    ((∃ report, (h.run candidate).result = .ok report) ↔ ∀ s ∈ h.shapes, HasRoom s) ∧
      ∀ report, (h.run candidate).result = .ok report →
        report.cases.map Case.shape = h.shapes ∧ ∀ found ∈ report.cases, found.Clean := by
  have hf : candidate.Faithful := by
    rcases hc with rfl | ⟨p, rfl⟩ | ⟨p, runBands, hs, hrun⟩
    · exact Kernel.faithful_reference
    · exact Kernel.faithful_rowParallel p
    · exact Kernel.faithful_of_schedules hs hrun
  refine ⟨Harness.run_faithful hf, fun report hrun => ⟨Harness.map_shape_of_run hrun, ?_⟩⟩
  intro found hfound
  obtain ⟨hall, rfl⟩ := Harness.run_eq_ok_iff.1 hrun
  obtain ⟨i, hi, rfl⟩ := List.mem_mapIdx.1 hfound
  exact clean_verdict hf h.mode (hall i _ (List.getElem?_eq_getElem hi)).1 ..

/-- Two bands under a tolerance whose bounds are a NaN and minus infinity, with a NaN for a sentinel. -/
theorem no_false_alarm_odd_bounds :
    let candidate := Kernel.rowParallel ((Banding.ofThreads 2).withSplit 0 0)
    let h : Harness :=
      { seed := 7, shapes := [⟨2, 1, 1⟩, ⟨0, 4, 3⟩], mode := .within ⟨.nan, ⟨0xff800000⟩, 0⟩,
        sentinel := ⟨0xffc00001⟩, shapes_ne_nil := by decide }
    ∃ report, (h.run candidate).result = .ok report ∧
      report.cases.map Case.shape = [⟨2, 1, 1⟩, ⟨0, 4, 3⟩] ∧ ∀ found ∈ report.cases, found.Clean := by
  intro candidate h
  obtain ⟨hreport, hclean⟩ := no_false_alarm h (.inr (.inl ⟨_, rfl⟩) : candidate = .reference ∨ _)
  have hroom : ∀ s ∈ h.shapes, HasRoom s := by
    intro s hs
    simp only [h, List.mem_cons, List.not_mem_nil, or_false] at hs
    rcases hs with rfl | rfl
    · exact ⟨by decide, by decide, by decide⟩
    · exact ⟨by decide, by decide, by decide⟩
  obtain ⟨report, hrun⟩ := hreport.2 hroom
  exact ⟨report, hrun, hclean report hrun⟩

end Conformance

end DenseMatmul
