import DenseMatmul.Conformance.Check
import DenseMatmul.Proofs.Reference
/-!
# The cases of a run

All shapes of a run draw from one stream, each where the one before left off. So the inputs of a case
depend on the seed, on its shape and on how much the shapes before it draw, and on nothing that a
kernel does. `run_eq_ok_iff` says when a run gives a report, and which: the case of every shape is
then a function of the shape and of its place in the stream.
-/

namespace DenseMatmul.Conformance

/-! ## Inputs -/

/-- How many numbers a shape draws. -/
def drawCount (s : Shape) : Nat := s.m * s.k + s.k * s.n

/-- The generator after the draws of these shapes. -/
def past (g : Generator) (shapes : List Shape) : Generator :=
  { g with position := shapes.foldl (fun position s => position + drawCount s) g.position }

def inputA (s : Shape) (g : Generator) : Buffer := (g.draw (s.m * s.k)).1

def inputB (s : Shape) (g : Generator) : Buffer := ((g.draw (s.m * s.k)).2.draw (s.k * s.n)).1

theorem size_draw (g : Generator) (length : Nat) : (g.draw length).1.size = length := by
  rw [← Array.length_toList, Generator.toList_draw, List.length_map, List.length_range']

@[simp] theorem size_inputA (s : Shape) (g : Generator) : (inputA s g).size = s.m * s.k :=
  size_draw ..

@[simp] theorem size_inputB (s : Shape) (g : Generator) : (inputB s g).size = s.k * s.n :=
  size_draw ..

theorem past_past (g : Generator) (shapes more : List Shape) :
    past (past g shapes) more = past g (shapes ++ more) := by
  simp [past]

theorem drawInputs_eq_ok_iff {s : Shape} {g : Generator} {r : Buffer × Buffer × Generator} :
    drawInputs s g = .ok r ↔ s.m * s.k < wordLimit ∧ s.k * s.n < wordLimit ∧
      r = (inputA s g, inputB s g, past g [s]) := by
  simp only [drawInputs, Shape.aLen, Shape.bLen, elementCount]
  by_cases ha : s.m * s.k < wordLimit
  · by_cases hb : s.k * s.n < wordLimit
    · simp [ha, hb, bind, Except.bind, pure, Except.pure, past, drawCount, inputA, inputB,
        Generator.draw, Nat.add_assoc, eq_comm]
    · simp [ha, hb, bind, Except.bind]
  · simp [ha, bind, Except.bind]

/-! ## One case -/

/-- What the output buffer of a case holds before the call. -/
def blank (sentinel : Single) (s : Shape) : Buffer :=
  .replicate (s.m * s.n + guardLength) sentinel

/-- The call of a kernel in a case. -/
def callOn (kernel : Kernel) (sentinel : Single) (s : Shape) (g : Generator) : Call :=
  kernel.multiplyInto s (inputA s g) (inputB s g) (blank sentinel s)

/-- The buffers of a case, the guard included, have words for sizes. -/
structure HasRoom (s : Shape) : Prop where
  a_word : s.m * s.k < wordLimit
  b_word : s.k * s.n < wordLimit
  guarded_word : s.m * s.n + guardLength < wordLimit

instance (s : Shape) : Decidable (HasRoom s) :=
  decidable_of_iff
    (s.m * s.k < wordLimit ∧ s.k * s.n < wordLimit ∧ s.m * s.n + guardLength < wordLimit)
    ⟨fun ⟨ha, hb, hc⟩ => ⟨ha, hb, hc⟩, fun ⟨ha, hb, hc⟩ => ⟨ha, hb, hc⟩⟩

/-- What a case finds of a candidate. -/
def verdict (mode : Mode) (sentinel : Single) (candidate : Kernel) (s : Shape) (g : Generator) :
    Case :=
  judge mode sentinel s (s.m * s.n) (callOn .reference sentinel s g).c
    (callOn candidate sentinel s g).c

@[simp] theorem size_callOn (kernel : Kernel) (sentinel : Single) (s : Shape) (g : Generator) :
    (callOn kernel sentinel s g).c.size = s.m * s.n + guardLength := by
  rw [callOn, kernel.size_c, blank, Array.size_replicate]

theorem HasRoom.fits {s : Shape} (h : HasRoom s) (sentinel : Single) (g : Generator) :
    s.Fits (inputA s g).size (inputB s g).size (blank sentinel s).size := by
  have hc := h.guarded_word
  have hsize : (blank sentinel s).size = s.m * s.n + guardLength := Array.size_replicate
  exact ⟨h.a_word, Nat.le_of_eq (size_inputA s g).symm, h.b_word,
    Nat.le_of_eq (size_inputB s g).symm, by omega, by omega⟩

/-- In a case the reference always answers, with the product in front of the guard. -/
theorem reference_callOn {s : Shape} (h : HasRoom s) (sentinel : Single) (g : Generator) :
    (callOn .reference sentinel s g).answer.result = .ok () ∧
      (callOn .reference sentinel s g).c =
        Reference.product s (inputA s g) (inputB s g) (blank sentinel s) :=
  Reference.multiplyChecked_of_fits (h.fits sentinel g)

theorem guarded_eq_ok_iff {sentinel : Single} {length : Nat} {c : Buffer} :
    guarded sentinel length = .ok c ↔
      length + guardLength < wordLimit ∧ .replicate (length + guardLength) sentinel = c := by
  unfold guarded
  split
  · simp_all
  · simp only [reduceCtorEq, false_iff]
    omega

theorem result_report (name : String) (c : Case) : (report name c).result = .ok () := by
  unfold report
  split <;> rfl

theorem checkCase_eq_ok_iff {mode : Mode} {sentinel : Single} {candidate : Kernel} {s : Shape}
    {g : Generator} {r : Case × Generator} :
    (checkCase mode sentinel candidate s g).result = .ok r ↔
      (HasRoom s ∧ (callOn candidate sentinel s g).answer.result = .ok ()) ∧
        r = (verdict mode sentinel candidate s g, past g [s]) := by
  simp only [checkCase, Logged.bind_eq_ok_iff, Logged.result_mapError_eq_ok_iff,
    Logged.result_ofExcept, Logged.result_ofFault, Logged.mapError_eq_ok_iff]
  constructor
  · rintro ⟨_, hdraw, _, hlength, _, hblank, _, -, _, hactual, _, -, hr⟩
    obtain ⟨ha, hb, rfl⟩ := drawInputs_eq_ok_iff.1 hdraw
    obtain ⟨-, rfl⟩ := elementCount_eq_ok_iff.1 hlength
    obtain ⟨hc, rfl⟩ := guarded_eq_ok_iff.1 hblank
    exact ⟨⟨⟨ha, hb, hc⟩, hactual⟩, (Except.ok.inj hr).symm⟩
  · rintro ⟨⟨hroom, hactual⟩, rfl⟩
    have hc := hroom.guarded_word
    exact ⟨_, drawInputs_eq_ok_iff.2 ⟨hroom.a_word, hroom.b_word, rfl⟩, _,
      elementCount_eq_ok_iff.2 ⟨by omega, rfl⟩, _, guarded_eq_ok_iff.2 ⟨hc, rfl⟩, (),
      (reference_callOn hroom sentinel g).1, (), hactual, (), result_report .., rfl⟩

/-! ## A run -/

/-- A run reports what its check finds of every shape, at the shape's place in the stream, if no
check fails. -/
theorem runCases_eq_ok_iff {check : Shape → Generator → Logged CheckError (Case × Generator)}
    {succeeds : Shape → Generator → Prop} {found : Shape → Generator → Case}
    (hcheck : ∀ s g r, (check s g).result = .ok r ↔ succeeds s g ∧ r = (found s g, past g [s]))
    {shapes : List Shape} {g : Generator} {cases : List Case} :
    (runCases check shapes g).result = .ok cases ↔
      (∀ i s, shapes[i]? = some s → succeeds s (past g (shapes.take i))) ∧
        cases = shapes.mapIdx fun i s => found s (past g (shapes.take i)) := by
  induction shapes generalizing g cases with
  | nil => simp [runCases, eq_comm]
  | cons s rest ih =>
    -- The rest of the run begins where the first shape left off.
    have hpast : ∀ i, past g ((s :: rest).take (i + 1)) = past (past g [s]) (rest.take i) :=
      fun i => by rw [past_past, List.take_succ_cons]; rfl
    simp only [runCases, Logged.bind_eq_ok_iff, hcheck, ih, List.mapIdx_cons, hpast,
      Logged.result_pure]
    constructor
    · rintro ⟨_, ⟨hs, rfl⟩, _, ⟨hrest, rfl⟩, hcases⟩
      refine ⟨fun i => ?_, (Except.ok.inj hcases).symm⟩
      cases i with
      | zero =>
        rintro _ ⟨⟩
        exact hs
      | succ i =>
        rw [hpast]
        exact hrest i
    · rintro ⟨hall, rfl⟩
      refine ⟨_, ⟨hall 0 s rfl, rfl⟩, _, ⟨fun i => ?_, rfl⟩, rfl⟩
      rw [← hpast]
      exact hall (i + 1)

/-- Where case `i` draws from. -/
def Harness.generatorAt (h : Harness) (i : Nat) : Generator :=
  past (.seeded h.seed) (h.shapes.take i)

theorem Harness.run_eq_ok_iff {h : Harness} {candidate : Kernel} {report : Report} :
    (h.run candidate).result = .ok report ↔
      (∀ i s, h.shapes[i]? = some s → HasRoom s ∧
        (callOn candidate h.sentinel s (h.generatorAt i)).answer.result = .ok ()) ∧
      report =
        { kernel := candidate.name
          mode := h.mode
          cases := h.shapes.mapIdx fun i s =>
            verdict h.mode h.sentinel candidate s (h.generatorAt i) } := by
  simp only [run, Logged.bind_eq_ok_iff, Logged.result_pure, Logged.result_emit,
    runCases_eq_ok_iff fun _ _ _ => checkCase_eq_ok_iff]
  constructor
  · rintro ⟨_, -, _, ⟨hall, rfl⟩, hreport⟩
    exact ⟨hall, (Except.ok.inj hreport).symm⟩
  · rintro ⟨hall, rfl⟩
    exact ⟨(), trivial, _, ⟨hall, rfl⟩, rfl⟩

/-- A report has one case for each shape, in their order. -/
theorem Harness.map_shape_of_run {h : Harness} {candidate : Kernel} {report : Report}
    (hrun : (h.run candidate).result = .ok report) : report.cases.map Case.shape = h.shapes := by
  obtain ⟨-, rfl⟩ := run_eq_ok_iff.1 hrun
  refine List.ext_getElem? fun i => ?_
  simp only [List.getElem?_map, List.getElem?_mapIdx]
  cases h.shapes[i]? <;> rfl

end DenseMatmul.Conformance
