import Mathlib.Algebra.GroupWithZero.Nat
import DenseMatmul.Proofs.Acceptance
import DenseMatmul.Proofs.Forms
import DenseMatmul.Proofs.Transposed
/-!
# Replays

A case can be had again without the shapes that came after it. Its A and B lie side by side in the stream
of the seed, where the shapes before it left off, and nothing else is drawn: not by the candidate, nor in
another mode, nor for the cross-check, which walks the same stream. So a run over the first shapes of a
longer one reports the first cases of that run (`runCases_of_append`), and a candidate is called with these
inputs and no others (`checkCase_congr`).
-/

namespace DenseMatmul

theorem Logged.bind_congr {ε α β : Type} {x : Logged ε α} {f f' : α → Logged ε β}
    (h : ∀ y, x.result = .ok y → f y = f' y) : x >>= f = x >>= f' := by
  obtain ⟨e | y, log⟩ := x
  · rfl
  · change Logged.mk _ _ = Logged.mk _ _
    rw [h y rfl]

namespace Conformance

/-! ## The stream of a seed -/

/-- The numbers that all runs with this seed draw from. -/
def stream (seed : UInt64) : Nat → Single := (Generator.seeded seed).number

/-- `length` numbers of a stream, from place `start` on. -/
def segment (numbers : Nat → Single) (start length : Nat) : Buffer :=
  .ofFn fun i : Fin length => numbers (start + i)

/-- Where case `i` starts to draw: after A and B of every shape before it. -/
def Harness.start (h : Harness) (i : Nat) : Nat :=
  ((h.shapes.take i).map fun s => s.m * s.k + s.k * s.n).sum

/-- A and B of case `i`, the one behind the other. -/
def Harness.inputs (h : Harness) (i : Nat) (s : Shape) : Buffer × Buffer :=
  (segment (stream h.seed) (h.start i) (s.m * s.k),
    segment (stream h.seed) (h.start i + s.m * s.k) (s.k * s.n))

/-- The same harness with more shapes to come. -/
def Harness.followedBy (h : Harness) (later : List Shape) : Harness :=
  { h with shapes := h.shapes ++ later, shapes_ne_nil := by simp [h.shapes_ne_nil] }

theorem draw_eq_segment (g : Generator) (length : Nat) :
    (g.draw length).1 = segment g.number g.position length := by
  rw [← Array.toList_inj, Generator.toList_draw, segment, Array.toList_ofFn]
  refine List.ext_getElem (by simp) fun i hi hi' => ?_
  simp

theorem Harness.position_generatorAt (h : Harness) (i : Nat) :
    (h.generatorAt i).position = h.start i := by
  rw [start, List.sum_eq_foldl, List.foldl_map]
  rfl

theorem Harness.inputA_generatorAt (h : Harness) (i : Nat) (s : Shape) :
    inputA s (h.generatorAt i) = (h.inputs i s).1 := by
  rw [inputA, draw_eq_segment, h.position_generatorAt]
  rfl

theorem Harness.inputB_generatorAt (h : Harness) (i : Nat) (s : Shape) :
    inputB s (h.generatorAt i) = (h.inputs i s).2 := by
  rw [inputB, draw_eq_segment, Generator.draw, h.position_generatorAt]
  rfl

theorem Harness.callOn_generatorAt (h : Harness) (kernel : Kernel) (i : Nat) (s : Shape) :
    callOn kernel h.sentinel s (h.generatorAt i) =
      kernel.multiplyInto s (h.inputs i s).1 (h.inputs i s).2 (blank h.sentinel s) := by
  rw [callOn, h.inputA_generatorAt, h.inputB_generatorAt]

/-! ## Cases of the cross-check -/

/-- What a case of the cross-check compares. -/
def crossVerdict (tolerance : Tolerance) (s : Shape) (g : Generator) : Case :=
  let a := inputA s g
  let b := inputB s g
  { shape := s
    comparison := .of (.within tolerance)
      (Reference.product s a b (.replicate (s.m * s.n) .zero))
      (Transpose.flipped (TransposedProduct.narrowed s a b) s.n s.m)
    unwritten := 0
    guardWrites := 0 }

theorem crossCheckCase_eq_ok_iff {tolerance : Tolerance} {s : Shape} {g : Generator}
    {r : Case × Generator} :
    (crossCheckCase tolerance s g).result = .ok r ↔
      s.Fits (s.m * s.k) (s.k * s.n) (s.m * s.n) ∧
        r = (crossVerdict tolerance s g, past g [s]) := by
  have hsizes : s.Fits (inputA s g).size (inputB s g).size (s.m * s.n) ↔
      s.Fits (s.m * s.k) (s.k * s.n) (s.m * s.n) := by
    rw [size_inputA, size_inputB]
  simp only [crossCheckCase, Logged.bind_eq_ok_iff, Logged.result_mapError_eq_ok_iff,
    Logged.result_ofExcept, Logged.mapError_eq_ok_iff]
  constructor
  · rintro ⟨_, hdraw, _, hexpected, _, hactual, _, -, hr⟩
    obtain ⟨-, -, rfl⟩ := drawInputs_eq_ok_iff.1 hdraw
    obtain ⟨hfits, rfl⟩ := Reference.kernel_multiply_eq_ok_iff.1 hexpected
    obtain rfl := Except.ok.inj ((TransposedProduct.multiply_eq hfits).symm.trans hactual)
    exact ⟨hsizes.1 hfits, (Except.ok.inj hr).symm⟩
  · rintro ⟨hfits, rfl⟩
    have hfits' := hsizes.2 hfits
    exact ⟨_, drawInputs_eq_ok_iff.2 ⟨hfits.a_word, hfits.b_word, rfl⟩, _,
      Reference.kernel_multiply_eq_ok_iff.2 ⟨hfits', rfl⟩, _, TransposedProduct.multiply_eq hfits',
      (), rfl, rfl⟩

theorem Harness.crossCheck_eq_ok_iff {h : Harness} {tolerance : Tolerance} {report : Report} :
    (h.crossCheck tolerance).result = .ok report ↔
      (∀ (i : Nat) (s : Shape), h.shapes[i]? = some s → s.Fits (s.m * s.k) (s.k * s.n) (s.m * s.n)) ∧
      report =
        { kernel := "transpose"
          mode := .within tolerance
          cases := h.shapes.mapIdx fun i s => crossVerdict tolerance s (h.generatorAt i) } := by
  simp only [crossCheck, Logged.bind_eq_ok_iff, Logged.result_pure,
    runCases_eq_ok_iff fun _ _ _ => crossCheckCase_eq_ok_iff]
  constructor
  · rintro ⟨_, ⟨hall, rfl⟩, hreport⟩
    exact ⟨hall, (Except.ok.inj hreport).symm⟩
  · rintro ⟨hall, rfl⟩
    exact ⟨_, ⟨hall, rfl⟩, rfl⟩

/-! ## Runs over fewer shapes -/

variable {check check' : Shape → Generator → Logged CheckError (Case × Generator)}

/-- What a run finds of the first shapes it finds without the others too. -/
theorem runCases_of_append {shapes later : List Shape} {g : Generator} {cases : List Case}
    (h : (runCases check (shapes ++ later) g).result = .ok cases) :
    (runCases check shapes g).result = .ok (cases.take shapes.length) := by
  induction shapes generalizing g cases with
  | nil => rfl
  | cons s rest ih =>
    simp only [List.cons_append, runCases, Logged.bind_eq_ok_iff, Logged.result_pure] at h ⊢
    obtain ⟨found, hs, more, hmore, hcases⟩ := h
    obtain rfl := Except.ok.inj hcases
    exact ⟨found, hs, _, ih hmore, rfl⟩

/-- A run depends on its check only at the place of each shape in the stream. -/
theorem runCases_congr {shapes : List Shape} {g : Generator}
    (hpast : ∀ s g r, (check s g).result = .ok r → r.2 = past g [s])
    (h : ∀ (i : Nat) (s : Shape), shapes[i]? = some s →
      check s (past g (shapes.take i)) = check' s (past g (shapes.take i))) :
    runCases check shapes g = runCases check' shapes g := by
  induction shapes generalizing g with
  | nil => rfl
  | cons s rest ih =>
    have hs : check s g = check' s g := h 0 s rfl
    rw [runCases, runCases, ← hs]
    refine Logged.bind_congr ?_
    rintro ⟨found, g'⟩ hr
    obtain rfl : g' = past g [s] := hpast s g _ hr
    -- The rest of the run begins where the first shape left off.
    have hrest : runCases check rest (past g [s]) = runCases check' rest (past g [s]) := by
      refine ih fun i t ht => ?_
      rw [past_past]
      exact h (i + 1) t ht
    simp only [hrest]

/-- A case calls its candidate with its own inputs and no others. -/
theorem checkCase_congr {mode : Mode} {sentinel : Single} {candidate candidate' : Kernel} {s : Shape}
    {g : Generator} (hname : candidate'.name = candidate.name)
    (hcall : callOn candidate' sentinel s g = callOn candidate sentinel s g) :
    checkCase mode sentinel candidate' s g = checkCase mode sentinel candidate s g := by
  unfold checkCase
  refine Logged.bind_congr fun drawn hdraw => ?_
  refine Logged.bind_congr fun length hlength => ?_
  refine Logged.bind_congr fun c hblank => ?_
  simp only [Logged.result_mapError_eq_ok_iff, Logged.result_ofExcept, Logged.result_ofFault,
    Logged.mapError_eq_ok_iff] at hdraw hlength hblank
  obtain ⟨-, -, rfl⟩ := drawInputs_eq_ok_iff.1 hdraw
  obtain ⟨-, rfl⟩ := elementCount_eq_ok_iff.1 hlength
  obtain ⟨-, rfl⟩ := guarded_eq_ok_iff.1 hblank
  simp only [callOn, blank] at hcall
  simp only [hcall, hname]

variable {h : Harness} {later : List Shape} {candidate candidate' : Kernel} {tolerance : Tolerance}
  {report : Report}

theorem Harness.run_of_followedBy (hrun : ((h.followedBy later).run candidate).result = .ok report) :
    (h.run candidate).result =
      .ok { report with cases := report.cases.take h.shapes.length } := by
  simp only [run, Logged.bind_eq_ok_iff, Logged.result_emit, Logged.result_pure] at hrun ⊢
  obtain ⟨_, -, cases, hcases, hreport⟩ := hrun
  obtain rfl := Except.ok.inj hreport
  exact ⟨(), trivial, _, runCases_of_append hcases, rfl⟩

theorem Harness.crossCheck_of_followedBy
    (hrun : ((h.followedBy later).crossCheck tolerance).result = .ok report) :
    (h.crossCheck tolerance).result =
      .ok { report with cases := report.cases.take h.shapes.length } := by
  simp only [crossCheck, Logged.bind_eq_ok_iff, Logged.result_pure] at hrun ⊢
  obtain ⟨cases, hcases, hreport⟩ := hrun
  obtain rfl := Except.ok.inj hreport
  exact ⟨_, runCases_of_append hcases, rfl⟩

theorem Harness.run_congr (hname : candidate'.name = candidate.name)
    (hcalls : ∀ (i : Nat) (s : Shape), h.shapes[i]? = some s →
      candidate'.multiplyInto s (h.inputs i s).1 (h.inputs i s).2 (blank h.sentinel s) =
        candidate.multiplyInto s (h.inputs i s).1 (h.inputs i s).2 (blank h.sentinel s)) :
    h.run candidate' = h.run candidate := by
  have hcases : runCases (checkCase h.mode h.sentinel candidate') h.shapes (.seeded h.seed) =
      runCases (checkCase h.mode h.sentinel candidate) h.shapes (.seeded h.seed) := by
    refine runCases_congr (fun s g r hr => ?_) fun i s hs => checkCase_congr hname ?_
    · rw [(checkCase_eq_ok_iff.1 hr).2]
    · exact (h.callOn_generatorAt candidate' i s).trans
        ((hcalls i s hs).trans (h.callOn_generatorAt candidate i s).symm)
  simp only [run, hcases, hname]

theorem Harness.case_of_run {i : Nat} {s : Shape} (hs : h.shapes[i]? = some s)
    (hrun : (h.run candidate).result = .ok report) :
    let c := blank h.sentinel s
    report.cases[i]? = some (judge h.mode h.sentinel s (s.m * s.n)
      (Kernel.reference.multiplyInto s (h.inputs i s).1 (h.inputs i s).2 c).c
      (candidate.multiplyInto s (h.inputs i s).1 (h.inputs i s).2 c).c) := by
  obtain ⟨-, rfl⟩ := run_eq_ok_iff.1 hrun
  simp only [List.getElem?_mapIdx, hs, Option.map_some, verdict, callOn_generatorAt]

theorem Harness.case_of_crossCheck {i : Nat} {s : Shape} (hs : h.shapes[i]? = some s)
    (hrun : (h.crossCheck tolerance).result = .ok report) :
    ∃ expected actual,
      (Kernel.reference.multiply s (h.inputs i s).1 (h.inputs i s).2).result = .ok expected ∧
      (TransposedProduct.multiply s (h.inputs i s).1 (h.inputs i s).2).result = .ok actual ∧
      report.cases[i]? = some
        { shape := s, comparison := .of (.within tolerance) expected actual, unwritten := 0,
          guardWrites := 0 } := by
  obtain ⟨hall, rfl⟩ := crossCheck_eq_ok_iff.1 hrun
  have hfits := hall i s hs
  rw [← size_inputA s (h.generatorAt i), ← size_inputB s (h.generatorAt i),
    h.inputA_generatorAt, h.inputB_generatorAt] at hfits
  refine ⟨_, _, Reference.kernel_multiply_eq_ok_iff.2 ⟨hfits, rfl⟩,
    TransposedProduct.multiply_eq hfits, ?_⟩
  simp only [List.getElem?_mapIdx, hs, Option.map_some, crossVerdict, inputA_generatorAt,
    inputB_generatorAt]

/-- A run over more shapes, where it gives a report, finds of the first ones what a run over these alone
reports, and so does a cross-check. Case `i` of either has the same inputs: A and B are next to each other
in the stream of the seed, behind those of all shapes before. What a candidate would do with any others,
or with any other output buffer, makes no difference to a run, whether it ends in a report or not. -/
theorem replay_stable (h : Harness) (later : List Shape) (candidate : Kernel)
    (tolerance : Tolerance) :
    (∀ report, ((h.followedBy later).run candidate).result = .ok report →
      (h.run candidate).result =
        .ok { report with cases := report.cases.take h.shapes.length }) ∧
    (∀ report, ((h.followedBy later).crossCheck tolerance).result = .ok report →
      (h.crossCheck tolerance).result =
        .ok { report with cases := report.cases.take h.shapes.length }) ∧
    (∀ (i : Nat) (s : Shape), h.shapes[i]? = some s →
      let a := segment (stream h.seed) (h.start i) (s.m * s.k)
      let b := segment (stream h.seed) (h.start i + s.m * s.k) (s.k * s.n)
      let c := blank h.sentinel s
      (∀ report, (h.run candidate).result = .ok report →
        report.cases[i]? = some (judge h.mode h.sentinel s (s.m * s.n)
          (Kernel.reference.multiplyInto s a b c).c (candidate.multiplyInto s a b c).c)) ∧
      ∀ report, (h.crossCheck tolerance).result = .ok report →
        ∃ expected actual, (Kernel.reference.multiply s a b).result = .ok expected ∧
          (TransposedProduct.multiply s a b).result = .ok actual ∧
          report.cases[i]? = some
            { shape := s, comparison := .of (.within tolerance) expected actual, unwritten := 0,
              guardWrites := 0 }) ∧
    ∀ candidate' : Kernel, candidate'.name = candidate.name →
      (∀ (i : Nat) (s : Shape), h.shapes[i]? = some s →
        candidate'.multiplyInto s (h.inputs i s).1 (h.inputs i s).2 (blank h.sentinel s) =
          candidate.multiplyInto s (h.inputs i s).1 (h.inputs i s).2 (blank h.sentinel s)) →
      h.run candidate' = h.run candidate :=
  ⟨fun _ => Harness.run_of_followedBy, fun _ => Harness.crossCheck_of_followedBy,
    fun _ _ hs => ⟨fun _ => Harness.case_of_run hs, fun _ => Harness.case_of_crossCheck hs⟩,
    fun _ => Harness.run_congr⟩

/-- Two bands on a shape, and then a shape without rows. -/
theorem replay_stable_two_shapes :
    let candidate := Kernel.rowParallel ((Banding.ofThreads 2).withSplit 0 0)
    let h : Harness := { Plan.standard with shapes := [⟨2, 1, 1⟩], shapes_ne_nil := by decide }
    let longer := h.followedBy [⟨0, 4, 3⟩]
    ∃ report crossReport, (longer.run candidate).result = .ok report ∧
      (longer.crossCheck .standard).result = .ok crossReport ∧
      (h.run candidate).result = .ok { report with cases := report.cases.take 1 } ∧
      (h.crossCheck .standard).result =
        .ok { crossReport with cases := crossReport.cases.take 1 } := by
  intro candidate h longer
  have hshapes : ∀ {s}, s ∈ longer.shapes → s = ⟨2, 1, 1⟩ ∨ s = ⟨0, 4, 3⟩ := by
    simp [longer, h, Harness.followedBy]
  have hroom : ∀ s ∈ longer.shapes, HasRoom s := by decide
  have hfits : ∀ (i : Nat) (s : Shape), longer.shapes[i]? = some s →
      s.Fits (s.m * s.k) (s.k * s.n) (s.m * s.n) := by
    intro i s hs
    rcases hshapes (List.mem_of_getElem? hs) with rfl | rfl
    · exact ⟨by decide, by decide, by decide, by decide, by decide, by decide⟩
    · exact ⟨by decide, by decide, by decide, by decide, by decide, by decide⟩
  obtain ⟨report, hrun⟩ : ∃ report, (longer.run candidate).result = .ok report :=
    (Harness.run_faithful (Kernel.faithful_rowParallel _)).2 hroom
  obtain ⟨crossReport, hcross⟩ :
      ∃ report, (longer.crossCheck .standard).result = .ok report :=
    ⟨_, Harness.crossCheck_eq_ok_iff.2 ⟨hfits, rfl⟩⟩
  obtain ⟨hreplay, hcrossReplay, -⟩ := replay_stable h [⟨0, 4, 3⟩] candidate .standard
  exact ⟨report, crossReport, hrun, hcross, hreplay _ hrun, hcrossReplay _ hcross⟩

end Conformance

end DenseMatmul
