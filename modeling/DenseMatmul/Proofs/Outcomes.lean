import DenseMatmul.Proofs.Acceptance
/-!
# How a run ends

A candidate that answers whenever its buffers fit leaves a run two ways to end without a report. A shape
with a product that a word cannot count is refused, by the first such product. A shape whose products are
words can still be too large: its output is made with a guard behind it, that sum is counted by nobody, and
from `2 ^ 64 - 16` elements on it stops the run (`checkCase_of_unguardable`). The first shape that has no
room decides which (`Harness.run_of_first`).
-/

namespace DenseMatmul

namespace Conformance

variable {mode : Mode} {sentinel : Single} {candidate : Kernel} {s : Shape} {g : Generator}

/-! ## Shapes without room -/

/-- The first of the products for A, B and C that a word cannot count. -/
def overflow? (s : Shape) : Option MatmulError :=
  Shape.refusal
    [⟨wordLimit ≤ s.m * s.k, .dimensionOverflow s.m s.k⟩,
      ⟨wordLimit ≤ s.k * s.n, .dimensionOverflow s.k s.n⟩,
      ⟨wordLimit ≤ s.m * s.n, .dimensionOverflow s.m s.n⟩]

/-- Words can count the elements of the three matrices, but not those of C with its guard. -/
structure Unguardable (s : Shape) : Prop where
  counted : overflow? s = none
  guarded_large : wordLimit ≤ s.m * s.n + guardLength

theorem overflow?_eq_none_iff : overflow? s = none ↔
    s.m * s.k < wordLimit ∧ s.k * s.n < wordLimit ∧ s.m * s.n < wordLimit := by
  simp [overflow?, Shape.refusal]

theorem HasRoom.overflow? (h : HasRoom s) : overflow? s = none := by
  have := h.guarded_word
  exact overflow?_eq_none_iff.2 ⟨h.a_word, h.b_word, by omega⟩

theorem unguardable_of_not_hasRoom (h : ¬ HasRoom s) (hcounted : Conformance.overflow? s = none) :
    Unguardable s := by
  obtain ⟨ha, hb, -⟩ := overflow?_eq_none_iff.1 hcounted
  exact ⟨hcounted, Nat.not_lt.1 fun hc => h ⟨ha, hb, hc⟩⟩

/-- The products of A and B are counted to draw these, and that of C afterwards. -/
theorem counting_of_overflow {e : MatmulError} (h : overflow? s = some e) :
    drawInputs s g = .error e ∨ (∃ r, drawInputs s g = .ok r) ∧ s.cLen = .error e := by
  by_cases ha : s.m * s.k < wordLimit
  · by_cases hb : s.k * s.n < wordLimit
    · have hc : ¬ s.m * s.n < wordLimit := fun hc => by
        rw [overflow?_eq_none_iff.2 ⟨ha, hb, hc⟩] at h
        cases h
      obtain rfl : .dimensionOverflow s.m s.n = e := by
        simpa [Conformance.overflow?, Shape.refusal, ha, hb, Nat.not_lt.1 hc] using h
      exact .inr ⟨⟨_, drawInputs_eq_ok_iff.2 ⟨ha, hb, rfl⟩⟩, if_neg hc⟩
    · obtain rfl : .dimensionOverflow s.k s.n = e := by
        simpa [Conformance.overflow?, Shape.refusal, ha, Nat.not_lt.1 hb] using h
      left
      simp [drawInputs, Shape.aLen, Shape.bLen, elementCount, ha, hb, bind, Except.bind]
  · obtain rfl : .dimensionOverflow s.m s.k = e := by
      simpa [Conformance.overflow?, Shape.refusal, Nat.not_lt.1 ha] using h
    left
    simp [drawInputs, Shape.aLen, elementCount, ha, bind, Except.bind]

theorem checkCase_of_overflow {e : MatmulError} (h : overflow? s = some e) :
    (checkCase mode sentinel candidate s g).result = .error (.refused (.kernel e)) := by
  apply Logged.bind_eq_error_iff.2
  rcases counting_of_overflow (g := g) h with hdraw | ⟨⟨r, hdraw⟩, hlength⟩
  · left
    rw [hdraw]
    rfl
  · right
    refine ⟨r, by rw [hdraw]; rfl, Logged.bind_eq_error_iff.2 (.inl ?_)⟩
    rw [hlength]
    rfl

theorem checkCase_of_unguardable (h : Unguardable s) :
    (checkCase mode sentinel candidate s g).result = .error (.halted .wordOverflow) := by
  obtain ⟨ha, hb, hc⟩ := overflow?_eq_none_iff.1 h.counted
  have hdraw := drawInputs_eq_ok_iff (g := g).2 ⟨ha, hb, rfl⟩
  have hlength : s.cLen = .ok (s.m * s.n) := elementCount_eq_ok_iff.2 ⟨hc, rfl⟩
  have hguarded : guarded sentinel (s.m * s.n) = .error .wordOverflow :=
    if_neg (Nat.not_lt.2 h.guarded_large)
  refine Logged.bind_eq_error_iff.2 (.inr ⟨_, by rw [hdraw]; rfl, ?_⟩)
  refine Logged.bind_eq_error_iff.2 (.inr ⟨_, by rw [hlength]; rfl, ?_⟩)
  refine Logged.bind_eq_error_iff.2 (.inl ?_)
  rw [hguarded]
  rfl

/-! ## Runs -/

/-- A run fails with what its check says of the first shape where it fails. -/
theorem runCases_of_failure {check : Shape → Generator → Logged CheckError (Case × Generator)}
    {earlier later : List Shape} {e : Failure CheckError}
    (hearlier : ∀ t ∈ earlier, ∀ g, ∃ r, (check t g).result = .ok r)
    (h : ∀ g, (check s g).result = .error e) :
    (runCases check (earlier ++ s :: later) g).result = .error e := by
  induction earlier generalizing g with
  | nil => exact Logged.bind_eq_error_iff.2 (.inl (h g))
  | cons t rest ih =>
    obtain ⟨⟨found, g'⟩, hfound⟩ := hearlier t List.mem_cons_self g
    have hrest := ih (g := g') fun t ht => hearlier t (List.mem_cons_of_mem _ ht)
    exact Logged.bind_eq_error_iff.2 (.inr ⟨_, hfound, Logged.bind_eq_error_iff.2 (.inl hrest)⟩)

theorem Report.passed_iff (report : Report) : report.passed ↔ report.failures = [] := by
  simp [passed, failures, List.filter_eq_nil_iff]

namespace Harness

variable {h : Harness}

/-- The first shape that has no room. -/
def firstWithoutRoom (h : Harness) : Option Shape := h.shapes.find? fun s => ¬ HasRoom s

theorem firstWithoutRoom_eq_none_iff :
    h.firstWithoutRoom = none ↔ ∀ s ∈ h.shapes, HasRoom s := by
  simp [firstWithoutRoom]

theorem of_firstWithoutRoom (hfirst : h.firstWithoutRoom = some s) : ¬ HasRoom s ∧
    ∃ earlier later, h.shapes = earlier ++ s :: later ∧ ∀ t ∈ earlier, HasRoom t := by
  obtain ⟨hs, earlier, later, hshapes, hearlier⟩ := List.find?_eq_some_iff_append.1 hfirst
  exact ⟨by simpa using hs, earlier, later, hshapes, by simpa using hearlier⟩

/-- The first shape without room ends the run, and no shape behind it bears on how. -/
theorem run_of_first {e : Failure CheckError} (hc : candidate.Dependable)
    (hfirst : h.firstWithoutRoom = some s)
    (hfails : ∀ g, (checkCase h.mode h.sentinel candidate s g).result = .error e) :
    (h.run candidate).result = .error e := by
  obtain ⟨-, earlier, later, hshapes, hroom⟩ := of_firstWithoutRoom hfirst
  have hcases : (runCases (checkCase h.mode h.sentinel candidate) h.shapes (.seeded h.seed)).result =
      .error e := by
    rw [hshapes]
    refine runCases_of_failure (fun t ht g => ?_) hfails
    have ht' := hroom t ht
    exact ⟨_, checkCase_eq_ok_iff.2 ⟨⟨ht', callOn_of_dependable hc ht' ..⟩, rfl⟩⟩
  exact Logged.bind_eq_error_iff.2 (.inr ⟨(), rfl, Logged.bind_eq_error_iff.2 (.inl hcases)⟩)

/-- A run that ends as it should. It never stops. It is refused by the first product, in the order A, B,
C, that a word cannot count, of the first shape that has one. Without one it reports a case for each
shape, in their order, and passes if none of them fails. -/
structure Answered (h : Harness) (candidate : Kernel) : Prop where
  never_halts : ∀ f, (h.run candidate).result ≠ .error (.halted f)
  refused : ∀ e, h.shapes.findSome? overflow? = some e →
    (h.run candidate).result = .error (.refused (.kernel e))
  complete : h.shapes.findSome? overflow? = none → ∃ report,
    (h.run candidate).result = .ok report ∧ report.cases.map Case.shape = h.shapes ∧
      (report.passed ↔ report.failures = [])

/-- The first shape without room would have it but for its guard. -/
def Stumbles (h : Harness) : Prop := ∃ s, h.firstWithoutRoom = some s ∧ Unguardable s

theorem answered_of_hasRoom (hc : candidate.Dependable) (hroom : ∀ s ∈ h.shapes, HasRoom s) :
    h.Answered candidate := by
  obtain ⟨report, hrun⟩ := (run_of_dependable hc).2 hroom
  have hnone : h.shapes.findSome? overflow? = none :=
    List.findSome?_eq_none_iff.2 fun s hs => (hroom s hs).overflow?
  refine ⟨by simp [hrun], by simp [hnone], fun _ => ⟨report, hrun, map_shape_of_run hrun, ?_⟩⟩
  exact report.passed_iff

theorem answered_of_overflow {e : MatmulError} (hc : candidate.Dependable)
    (hfirst : h.firstWithoutRoom = some s) (hs : overflow? s = some e) : h.Answered candidate := by
  have hrun := run_of_first hc hfirst fun g => checkCase_of_overflow hs
  obtain ⟨-, earlier, later, hshapes, hroom⟩ := of_firstWithoutRoom hfirst
  have hsome : h.shapes.findSome? overflow? = some e :=
    List.findSome?_eq_some_iff.2 ⟨earlier, s, later, hshapes, hs, fun t ht => (hroom t ht).overflow?⟩
  refine ⟨by simp [hrun], fun e' he' => ?_, by simp [hsome]⟩
  obtain rfl : e = e' := Option.some.inj (hsome.symm.trans he')
  exact hrun

theorem run_of_stumbles (hc : candidate.Dependable) (hstumbles : h.Stumbles) :
    (h.run candidate).result = .error (.halted .wordOverflow) := by
  obtain ⟨s, hfirst, hs⟩ := hstumbles
  exact run_of_first hc hfirst fun g => checkCase_of_unguardable hs

/-- Every run with a dependable candidate ends as it should, with one exception: the first shape without
room has three products that are words, and too large a C for a guard. Then the run stops. -/
theorem answered_iff (h : Harness) (candidate : Kernel) (hc : candidate.Dependable) :
    (h.Answered candidate ↔ ¬ h.Stumbles) ∧
      (h.Stumbles → (h.run candidate).result = .error (.halted .wordOverflow)) := by
  refine ⟨⟨fun hanswered hstumbles => ?_, fun hsteady => ?_⟩, run_of_stumbles hc⟩
  · exact hanswered.never_halts _ (run_of_stumbles hc hstumbles)
  · cases hfirst : h.firstWithoutRoom with
    | none => exact answered_of_hasRoom hc (firstWithoutRoom_eq_none_iff.1 hfirst)
    | some s =>
      cases hs : overflow? s with
      | some e => exact answered_of_overflow hc hfirst hs
      | none =>
        have hunguardable := unguardable_of_not_hasRoom (of_firstWithoutRoom hfirst).1 hs
        exact absurd ⟨s, hfirst, hunguardable⟩ hsteady

/-- A B of `2 ^ 64` elements is refused, although the A before it could be made and the shape after it
would stop the run. -/
theorem answered_iff_overflow_first :
    let shapes : List Shape :=
      [⟨2, 1, 1⟩, ⟨3, 0x8000000000000000, 2⟩, ⟨0xffffffffffffffff, 1, 0⟩]
    let h : Harness := { Plan.standard with shapes, shapes_ne_nil := by decide }
    Kernel.reference.Dependable ∧ h.Answered .reference ∧ (h.run .reference).result =
      .error (.refused (.kernel (.dimensionOverflow 2 0x8000000000000000))) := by
  intro shapes h
  have hc : Kernel.reference.Dependable := Kernel.faithful_reference.dependable
  have hsteady : ¬ h.Stumbles := by
    rintro ⟨s, hfirst, hs⟩
    obtain rfl : ⟨3, 0x8000000000000000, 2⟩ = s := Option.some.inj hfirst
    exact absurd hs.counted (by decide)
  have hanswered := (answered_iff h .reference hc).1.2 hsteady
  exact ⟨hc, hanswered, hanswered.refused _ (by decide)⟩

/-- With `2 ^ 64 - 1` rows of one element and nothing to sum over, words can count all three matrices,
and the run stops. -/
theorem guard_not_counted :
    let h : Harness :=
      { Plan.standard with shapes := [⟨0xffffffffffffffff, 1, 0⟩], shapes_ne_nil := by decide }
    h.shapes.findSome? overflow? = none ∧
      (h.run .reference).result = .error (.halted .wordOverflow) ∧
      ¬ ∀ (h : Harness) (candidate : Kernel), candidate.Dependable → h.Answered candidate := by
  intro h
  have hc : Kernel.reference.Dependable := Kernel.faithful_reference.dependable
  have hrun : (h.run .reference).result = .error (.halted .wordOverflow) :=
    run_of_stumbles hc ⟨_, rfl, ⟨by decide, by decide⟩⟩
  exact ⟨by decide, hrun, fun hall => (hall h .reference hc).never_halts _ hrun⟩

end Harness

end Conformance

end DenseMatmul
