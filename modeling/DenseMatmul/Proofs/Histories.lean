import DenseMatmul.Proofs.Causes
/-!
# Histories of a session

A history is a list of moves: calls from outside, and kernels of any kind that the library itself puts
behind a handle. A kernel that behaves differently from one call to the next is one that is put there
anew before each call. What holds at the start and is kept by each move holds after every history
(`after_induction`).
-/

namespace DenseMatmul.Boundary

inductive Move where
  | call (request : Request)
  /-- A kernel is put behind a handle from inside. -/
  | hold (handle : String) (bound : Bound)

namespace Session

variable {machineThreads : Nat}

def move (machineThreads : Nat) (session : Session) : Move → Session
  | .call request => (session.step machineThreads request).2
  | .hold handle bound => session.hold handle bound

/-- The session after a history. -/
def after (machineThreads : Nat) (session : Session) (moves : List Move) : Session :=
  moves.foldl (move machineThreads) session

@[simp] theorem after_nil (session : Session) : session.after machineThreads [] = session := rfl

@[simp] theorem after_cons (session : Session) (first : Move) (moves : List Move) :
    session.after machineThreads (first :: moves) =
      (session.move machineThreads first).after machineThreads moves := rfl

theorem after_induction {P : Session → Prop} {moves : List Move} {session : Session}
    (start : P session)
    (keep : ∀ session, P session → ∀ x ∈ moves, P (session.move machineThreads x)) :
    P (session.after machineThreads moves) := by
  -- On the moves, from any session that has the property.
  induction moves generalizing session with
  | nil => exact start
  | cons first rest ih =>
    refine ih (keep session start first (by simp)) fun session hs x hx => ?_
    exact keep session hs x (List.mem_cons_of_mem _ hx)

end Session

/-! ## Kernels made on request -/

/-- A kernel that a call has made is bound to the extents of the call, which are not negative, and does
what the reference does. -/
theorem newKernel_eq_ok {machineThreads : Nat} {m n k : Int} {variant : Variant} {output : Bool}
    {bound : Bound} (h : (Session.newKernel machineThreads m n k variant output).result = .ok bound) :
    output = true ∧ 0 ≤ m ∧ 0 ≤ n ∧ 0 ≤ k ∧ bound.shape = ⟨m.toNat, n.toNat, k.toNat⟩ ∧
      bound.kernel.Faithful := by
  cases output with
  | false => cases h
  | true =>
    obtain ⟨e, -, hcall⟩ | ⟨bound', hlengths, hcall, hkernel⟩ :=
      newKernel_cases m n k machineThreads variant
    · rw [hcall] at h; cases h
    · rw [hcall] at h
      obtain rfl := Except.ok.inj h
      obtain ⟨hm, hn, hk, hs, -⟩ := requiredLengths_eq_ok hlengths
      refine ⟨rfl, hm, hn, hk, hs, ?_⟩
      rw [hkernel]
      exact Selection.kernel_agrees _

/-! ## What holds of every kernel held -/

/-- Every kernel that there is a handle of has the property. -/
def Session.AllHeld (session : Session) (P : Bound → Prop) : Prop :=
  ∀ handle bound, session.kernels.lookup handle = some bound → P bound

/-- If the move puts a kernel behind a handle, then one with the property. -/
def Move.Brings (machineThreads : Nat) (P : Bound → Prop) : Move → Prop
  | .hold _ bound => P bound
  | .call (.create _ m n k variant output) =>
    ∀ bound, (Session.newKernel machineThreads m n k variant output).result = .ok bound → P bound
  | .call _ => True

namespace Session

variable {machineThreads : Nat} {session : Session} {P : Bound → Prop}

theorem allHeld_empty : ({} : Session).AllHeld P := fun _ _ h => by cases h

theorem AllHeld.move (h : session.AllHeld P) {x : Move} (hx : x.Brings machineThreads P) :
    (session.move machineThreads x).AllHeld P := by
  intro other held hl
  -- A kernel found afterwards is the one the move has brought, or was held before.
  cases x with
  | hold handle bound =>
    simp only [Session.move, lookup_hold_if] at hl
    split at hl
    · obtain rfl := Option.some.inj hl
      exact hx
    · exact h other held hl
  | call request =>
    simp only [Session.move, lookup_step] at hl
    cases request with
    | create handle m n k variant output =>
      cases hmade : (newKernel machineThreads m n k variant output).result with
      | ok bound =>
        simp only [hmade] at hl
        split at hl
        · obtain rfl := Option.some.inj hl
          exact hx bound hmade
        · exact h other held hl
      | error e =>
        simp only [hmade] at hl
        exact h other held hl
    | destroy handle =>
      dsimp only at hl
      split at hl
      · cases hl
      · exact h other held hl
    | _ => exact h other held hl

theorem AllHeld.after {moves : List Move} (h : session.AllHeld P)
    (hmoves : ∀ x ∈ moves, x.Brings machineThreads P) :
    (session.after machineThreads moves).AllHeld P :=
  after_induction (P := (AllHeld · P)) h fun _ hs x hx => hs.move (hmoves x hx)

end Session

end DenseMatmul.Boundary
