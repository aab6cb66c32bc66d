import DenseMatmul.Proofs.Channel
/-!
# The dimensions of a handle

A handle from inside may have extents that no signed 32-bit integer holds. Asked for its dimensions, a
call stores all that are wanted or none (`dimensions_all_or_nothing`): every extent is looked at before
the first is stored, whether it is wanted or not, and the first that is too wide is named in the message.
-/

namespace DenseMatmul

/-- The entry of a triple that belongs to the axis. -/
def Axis.entry {α : Type} : Axis → α × α × α → α
  | .m, entries => entries.1
  | .n, entries => entries.2.1
  | .k, entries => entries.2.2

/-- The first extent that has no place in a signed 32-bit integer. -/
def Shape.wide? (s : Shape) : Option Nat := [s.m, s.n, s.k].find? (0x80000000 ≤ ·)

theorem Shape.wide?_eq_none_iff {s : Shape} :
    s.wide? = none ↔ ∀ axis : Axis, axis.entry (s.m, s.n, s.k) < 0x80000000 := by
  simp only [wide?, List.find?_eq_none, List.mem_cons, List.not_mem_nil, or_false, forall_eq_or_imp,
    forall_eq, decide_eq_true_eq, Nat.not_le]
  constructor
  · rintro ⟨hm, hn, hk⟩ axis
    cases axis <;> assumption
  · intro h
    exact ⟨h .m, h .n, h .k⟩

namespace Boundary

namespace Session

variable {session : Session} {handle : String} {bound : Bound}

theorem narrow_bind {β : Type} (value : Nat) (f : Int → Logged CallError β) :
    (narrow value >>= f) =
      if 0x80000000 ≤ value then .refuse (.wideDimension value) else f value := by
  unfold narrow
  split
  · rw [if_neg (by omega)]
    rfl
  · rw [if_pos (by omega)]
    rfl

theorem narrowAll_eq (s : Shape) :
    narrowAll s = match s.wide? with
      | none => pure (s.m, s.n, s.k)
      | some value => .refuse (.wideDimension value) := by
  simp only [narrowAll, narrow_bind, Shape.wide?, List.find?_cons, List.find?_nil]
  by_cases hm : 0x80000000 ≤ s.m <;> by_cases hn : 0x80000000 ≤ s.n <;>
    by_cases hk : 0x80000000 ≤ s.k <;> simp [hm, hn, hk]

theorem step_dimensions_of_held (machineThreads : Nat)
    (hl : session.kernels.lookup handle = some bound) (wanted : Bool × Bool × Bool)
    (stored : Int × Int × Int) :
    session.step machineThreads (.dimensions handle wanted stored) =
      match bound.shape.wide? with
      | none =>
        (.dimensions .ok (storeWanted wanted (bound.shape.m, bound.shape.n, bound.shape.k) stored),
          session)
      | some value =>
        (.dimensions .internal stored, session.setError (CallError.wideDimension value).message) := by
  have hcall : (session.shapeOf handle >>= narrowAll) = narrowAll bound.shape := by
    rw [shapeOf, hl]
    rfl
  simp only [step]
  rw [hcall, narrowAll_eq]
  cases bound.shape.wide? with
  | none => simp [finish, pure]
  | some value => simp [finish, Logged.refuse, CallError.ofFailure, CallError.status]

/-- An output that is wanted gets the value of its own axis, and any other keeps what it held. -/
theorem entry_storeWanted (wanted : Bool × Bool × Bool) (values stored : Int × Int × Int)
    (axis : Axis) :
    axis.entry (storeWanted wanted values stored) =
      if axis.entry wanted then axis.entry values else axis.entry stored := by
  cases axis <;> rfl

end Session

/-- The dimensions of any live handle. If all three have a place in a signed 32-bit integer, each output
that is wanted gets its own and nothing else is changed. If one has none, wanted or not, the call fails
with the first such dimension in its message, and all outputs keep what they held. -/
theorem dimensions_all_or_nothing (machineThreads : Nat) {session : Session} {handle : String}
    {bound : Bound} (hl : session.kernels.lookup handle = some bound) (wanted : Bool × Bool × Bool)
    (stored : Int × Int × Int) :
    let extents := (bound.shape.m, bound.shape.n, bound.shape.k)
    let called := session.step machineThreads (.dimensions handle wanted stored)
    ((∀ axis : Axis, axis.entry extents < 0x80000000) →
      ∃ outputs, called = (.dimensions .ok outputs, session) ∧ ∀ axis : Axis,
        axis.entry outputs = if axis.entry wanted then ↑(axis.entry extents) else axis.entry stored) ∧
    ((∃ axis : Axis, 0x80000000 ≤ axis.entry extents) →
      ∃ value, [bound.shape.m, bound.shape.n, bound.shape.k].find? (0x80000000 ≤ ·) = some value ∧
        called.1 = .dimensions .internal stored ∧ called.2.kernels = session.kernels ∧
        called.2.lastError = some s!"dimension {value} does not fit in i32") := by
  intro extents called
  have hcalled := Session.step_dimensions_of_held machineThreads hl wanted stored
  constructor
  · intro hfit
    rw [Shape.wide?_eq_none_iff.2 hfit] at hcalled
    refine ⟨_, hcalled, fun axis => ?_⟩
    rw [Session.entry_storeWanted]
    cases axis <;> rfl
  · rintro ⟨axis, hwide⟩
    cases hfirst : bound.shape.wide? with
    | none => exact absurd (Shape.wide?_eq_none_iff.1 hfirst axis) (Nat.not_lt.2 hwide)
    | some value =>
      rw [hfirst] at hcalled
      refine ⟨value, hfirst, congrArg Prod.fst hcalled, ?_, ?_⟩
      · exact congrArg (·.2.kernels) hcalled
      · exact (congrArg (·.2.lastError) hcalled).trans
          (channelAfter_error (deliverable_wideDimension value) session.lastError)

/-- One handle has no wide extent. Of the other two are wide, and neither is wanted. -/
theorem dimensions_all_or_nothing_unwanted :
    let narrow : Bound :=
      { shape := ⟨3, 0, 7⟩, kernel := .reference, aLen := 21, bLen := 0, cLen := 0
        aLen_eq := rfl, bLen_eq := rfl, cLen_eq := rfl }
    let wide : Bound :=
      { shape := ⟨3, 0x80000000, 0x100000000⟩, kernel := .reference, aLen := 0x300000000
        bLen := 0x8000000000000000, cLen := 0x180000000
        aLen_eq := rfl, bLen_eq := rfl, cLen_eq := rfl }
    let session := (({} : Session).hold "narrow" narrow).hold "wide" wide
    (session.kernels.lookup "narrow" = some narrow ∧
      session.step 1 (.dimensions "narrow" (true, false, true) (-1, -1, -1)) =
        (.dimensions .ok (3, -1, 7), session)) ∧
    session.kernels.lookup "wide" = some wide ∧
      (session.step 1 (.dimensions "wide" (true, false, false) (-1, -1, -1))).1 =
        .dimensions .internal (-1, -1, -1) ∧
      (session.step 1 (.dimensions "wide" (true, false, false) (-1, -1, -1))).2.lastError =
        some "dimension 2147483648 does not fit in i32" := by
  intro narrow wide session
  have hnarrow : session.kernels.lookup "narrow" = some narrow := rfl
  have hwide : session.kernels.lookup "wide" = some wide := rfl
  obtain ⟨outputs, hcalled, houtputs⟩ :=
    (dimensions_all_or_nothing 1 hnarrow (true, false, true) (-1, -1, -1)).1
      (fun axis => by cases axis <;> decide)
  obtain rfl : outputs = (3, -1, 7) :=
    Prod.ext (houtputs .m) (Prod.ext (houtputs .n) (houtputs .k))
  obtain ⟨value, hfirst, hresponse, -, hmessage⟩ :=
    (dimensions_all_or_nothing 1 hwide (true, false, false) (-1, -1, -1)).2 ⟨.n, by decide⟩
  obtain rfl : 0x80000000 = value := Option.some.inj ((by decide : _ = _).symm.trans hfirst)
  exact ⟨⟨hnarrow, hcalled⟩, hwide, hresponse, hmessage⟩

end Boundary

end DenseMatmul
