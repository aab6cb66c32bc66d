import DenseMatmul.Kernel.Faulty
import DenseMatmul.Proofs.Histories
/-!
# The channel of the last message

A failing call leaves its own message, a call that goes well leaves the channel alone, and asking for the
message takes it (`error_channel`). So what is handed out is always the message of the latest failing
call, if nobody has asked since (`lastError_after_from`).

A message that holds a NUL would be lost. None of those that the library words itself does, so none is
lost on a handle made by a call; with other kernels behind handles it is for them to keep NULs out.
-/

namespace DenseMatmul.Boundary

/-! ## Messages that can be handed out -/

/-- The text holds no NUL. -/
def Deliverable (text : String) : Prop := '\x00' ∉ text.toList

instance (text : String) : Decidable (Deliverable text) := inferInstanceAs (Decidable (¬ _))

theorem deliverable_append {s t : String} : Deliverable (s ++ t) ↔ Deliverable s ∧ Deliverable t := by
  simp [Deliverable, String.toList_append]

theorem deliverable_nat (n : Nat) : Deliverable (toString n) := by
  intro h
  rw [Nat.toString_eq_repr, Nat.toList_repr] at h
  -- All that a number is written with are digits, and NUL is none.
  have hdigit := Nat.isDigit_of_mem_toDigits (by decide) (by decide) h
  revert hdigit
  decide

theorem deliverable_int (n : Int) : Deliverable (toString n) := by
  cases n with
  | ofNat n => exact deliverable_nat n
  | negSucc n => exact deliverable_append.2 ⟨by decide, deliverable_nat _⟩

theorem deliverable_ofLengths {e : MatmulError} (h : OfLengths e) : Deliverable e.message := by
  cases h with
  | negativeExtent axis value =>
    unfold MatmulError.message ArgumentError.message
    -- The wording of the cause is itself a part of the text.
    have hcause : Deliverable s!"{axis.name} must be non-negative, got {value}" := by
      simp only [deliverable_append]
      refine ⟨⟨?_, by decide⟩, deliverable_int _⟩
      cases axis <;> decide
    exact deliverable_append.2 ⟨by decide, hcause⟩
  | dimensionOverflow rows cols =>
    unfold MatmulError.message
    simp only [deliverable_append]
    exact ⟨⟨⟨⟨by decide, deliverable_nat _⟩, by decide⟩, deliverable_nat _⟩, by decide⟩
  | bufferTooShort buffer required got =>
    unfold MatmulError.message
    simp only [deliverable_append]
    refine ⟨⟨⟨⟨⟨by decide, ?_⟩, by decide⟩, deliverable_nat _⟩, by decide⟩, deliverable_nat _⟩
    cases buffer <;> decide

theorem deliverable_nullBuffer (pointer : Pointer) :
    Deliverable (CallError.nullBuffer pointer).message := by
  cases pointer <;> decide

theorem deliverable_wideDimension (value : Nat) :
    Deliverable (CallError.wideDimension value).message := by
  simp only [CallError.message, deliverable_append]
  exact ⟨⟨by decide, deliverable_nat _⟩, by decide⟩

/-- Whatever the kernel refuses a call with can be handed out. -/
def Articulate (kernel : Kernel) : Prop :=
  ∀ s a b c e, (kernel.multiplyInto s a b c).answer.result = .error (.refused e) →
    Deliverable e.message

theorem articulate_of_faithful {kernel : Kernel} (h : kernel.Faithful) : Articulate kernel := by
  intro s a b c e he
  rw [(h s a b c).result] at he
  exact deliverable_ofLengths (ofLengths_multiplyChecked he)

/-- A call whose handle is null or has an articulate kernel fails with a message that can be handed
out. -/
theorem deliverable_cause {session : Session} {request : Request} {e : CallError}
    (hkernel : ∀ handle bound, request.handle? = some handle →
      session.kernels.lookup handle = some bound → Articulate bound.kernel)
    (h : Cause session request e) : Deliverable e.message := by
  cases h with
  | lengths he => exact deliverable_ofLengths he
  | nullBuffer pointer => exact deliverable_nullBuffer pointer
  | kernelRefused hl he => exact hkernel _ _ rfl hl _ _ _ _ _ he
  | wideDimension => exact deliverable_wideDimension _
  | _ => decide

theorem channelAfter_error {e : CallError} (h : Deliverable e.message) (last : Option String) :
    channelAfter last (some e) = some e.message := by
  simp only [channelAfter, String.contains_char_eq]
  exact if_neg (by simpa [Deliverable] using h)

/-! ## Handles with articulate kernels -/

/-- A kernel made by a call is articulate, and the others are if those put there from inside are. -/
theorem brings_articulate {machineThreads : Nat} {moves : List Move}
    (hmoves : ∀ handle bound, .hold handle bound ∈ moves → Articulate bound.kernel) :
    ∀ x ∈ moves, x.Brings machineThreads (Articulate ·.kernel) := by
  intro x hx
  cases x with
  | hold handle bound => exact hmoves handle bound hx
  | call request =>
    cases request with
    | create handle m n k variant output =>
      intro bound hmade
      obtain ⟨-, -, -, -, -, hfaithful⟩ := newKernel_eq_ok hmade
      exact articulate_of_faithful hfaithful
    | _ => trivial

namespace Session

variable {machineThreads : Nat} {session : Session}

theorem failure_deliverable (h : session.AllHeld (Articulate ·.kernel)) {request : Request} {e : CallError}
    (he : session.failure? machineThreads request = some e) : Deliverable e.message :=
  deliverable_cause (fun handle bound _ => h handle bound) (cause_of_failure he)

/-! ## Histories -/

/-- A move that leaves the channel alone: a call that does not fail and does not ask for the message, or
no call at all. -/
def Passes (machineThreads : Nat) (session : Session) : Move → Prop
  | .call request => request ≠ .lastError ∧ session.failure? machineThreads request = none
  | .hold _ _ => True

/-- A history of such moves. -/
def Quiet (machineThreads : Nat) : Session → List Move → Prop
  | _, [] => True
  | session, first :: rest =>
    session.Passes machineThreads first ∧ Quiet machineThreads (session.move machineThreads first) rest

/-- The text is the message of the latest failing call of the history, and nobody has asked since. -/
def Unread (machineThreads : Nat) (session : Session) (moves : List Move) (text : String) : Prop :=
  ∃ earlier failing later e, moves = earlier ++ .call failing :: later ∧
    (session.after machineThreads earlier).failure? machineThreads failing = some e ∧
    e.message = text ∧
    Quiet machineThreads (session.after machineThreads (earlier ++ [.call failing])) later

theorem unread_cons {first : Move} {moves : List Move} {text : String} :
    session.Unread machineThreads (first :: moves) text ↔
      (∃ failing e, first = .call failing ∧ session.failure? machineThreads failing = some e ∧
        e.message = text ∧ Quiet machineThreads (session.move machineThreads first) moves) ∨
      (session.move machineThreads first).Unread machineThreads moves text := by
  constructor
  · rintro ⟨earlier, failing, later, e, hmoves, he, htext, hquiet⟩
    cases earlier with
    | nil =>
      obtain ⟨rfl, rfl⟩ := List.cons.inj hmoves
      exact .inl ⟨failing, e, rfl, he, htext, hquiet⟩
    | cons x earlier =>
      obtain ⟨rfl, rfl⟩ := List.cons.inj hmoves
      exact .inr ⟨earlier, failing, later, e, rfl, he, htext, hquiet⟩
  · rintro (⟨failing, e, rfl, he, htext, hquiet⟩ | ⟨earlier, failing, later, e, rfl, he, htext, hquiet⟩)
    · exact ⟨[], failing, moves, e, rfl, he, htext, hquiet⟩
    · exact ⟨first :: earlier, failing, later, e, rfl, he, htext, hquiet⟩

/-- After one move the channel holds the message of a call that failed, or what it held before if the
move passes. -/
theorem lastError_move (h : session.AllHeld (Articulate ·.kernel)) (x : Move) (text : String) :
    (session.move machineThreads x).lastError = some text ↔
      session.lastError = some text ∧ session.Passes machineThreads x ∨
      ∃ failing e, x = .call failing ∧ session.failure? machineThreads failing = some e ∧
        e.message = text := by
  cases x with
  | hold handle bound => simp [move, Session.hold, erase, Passes]
  | call request =>
    by_cases hask : request = .lastError
    · subst hask
      simp [move, step, Passes, failure?]
    · simp only [move, (outcome_step machineThreads session hask).2, Passes]
      cases he : session.failure? machineThreads request with
      | none => simp [channelAfter, hask, he]
      | some e =>
        rw [channelAfter_error (failure_deliverable h he)]
        simp [he]

/-- The channel after a history, from any start: what it held at first if every move has passed, and
else the message that is unread. -/
theorem lastError_after_from {moves : List Move} (h : session.AllHeld (Articulate ·.kernel))
    (hmoves : ∀ x ∈ moves, x.Brings machineThreads (Articulate ·.kernel)) (text : String) :
    (session.after machineThreads moves).lastError = some text ↔
      session.lastError = some text ∧ Quiet machineThreads session moves ∨
        session.Unread machineThreads moves text := by
  -- On the moves, from any session: the first one settles what the others start from.
  induction moves generalizing session with
  | nil => simp [Quiet, Unread]
  | cons first rest ih =>
    have hfirst := h.move (hmoves first (by simp))
    have hrest := fun x hx => hmoves x (List.mem_cons_of_mem _ hx)
    rw [after_cons, ih hfirst hrest, lastError_move h, unread_cons, Quiet]
    constructor
    · rintro (⟨⟨hlast, hpass⟩ | ⟨failing, e, rfl, he, htext⟩, hquiet⟩ | hunread)
      · exact .inl ⟨hlast, hpass, hquiet⟩
      · exact .inr (.inl ⟨failing, e, rfl, he, htext, hquiet⟩)
      · exact .inr (.inr hunread)
    · rintro (⟨hlast, hpass, hquiet⟩ | ⟨failing, e, rfl, he, htext, hquiet⟩ | hunread)
      · exact .inl ⟨.inl ⟨hlast, hpass⟩, hquiet⟩
      · exact .inl ⟨.inr ⟨failing, e, rfl, he, htext⟩, hquiet⟩
      · exact .inr hunread

end Session

/-! ## The channel -/

/-- After any history from an empty session, whose handles are null or have articulate kernels. A call
that goes well leaves the channel as it was, and any other leaves its own message. Asking gives the
message of the latest failing call if nobody has asked since, and nothing otherwise, and empties the
channel. Nothing that can go wrong with a handle made by a call has a message that would be lost. -/
theorem error_channel (machineThreads : Nat) {moves : List Move}
    (hmoves : ∀ handle bound, .hold handle bound ∈ moves → Articulate bound.kernel) :
    let session := ({} : Session).after machineThreads moves
    (∀ request, request ≠ .lastError →
      let response := (session.step machineThreads request).1
      let after := (session.step machineThreads request).2
      (response.status? = some .ok ∧ session.failure? machineThreads request = none ∧
        after.lastError = session.lastError) ∨
      ∃ e, session.failure? machineThreads request = some e ∧ response.status? = some e.status ∧
        e.status ≠ .ok ∧ after.lastError = some e.message) ∧
    (∃ told, session.step machineThreads .lastError = (.message told, { session with lastError := none }) ∧
      ∀ text, told = some text ↔ ({} : Session).Unread machineThreads moves text) ∧
    ∀ m n k variant output bound,
      (Session.newKernel machineThreads m n k variant output).result = .ok bound →
      ∀ (session : Session) handle request e, session.kernels.lookup handle = some bound →
        request.handle? = some handle → session.failure? machineThreads request = some e →
        Deliverable e.message ∧
          (session.step machineThreads request).2.lastError = some e.message := by
  intro session
  have hbrings : ∀ x ∈ moves, x.Brings machineThreads (Articulate ·.kernel) :=
    brings_articulate hmoves
  have harticulate : session.AllHeld (Articulate ·.kernel) := Session.allHeld_empty.after hbrings
  refine ⟨fun request hask => ?_, ⟨session.lastError, rfl, fun text => ?_⟩, ?_⟩
  · dsimp only
    obtain ⟨hstatus, hlast⟩ := Session.outcome_step machineThreads session hask
    rw [hstatus, hlast]
    cases he : session.failure? machineThreads request with
    | none => exact .inl ⟨rfl, rfl, rfl⟩
    | some e =>
      have hmessage := Session.failure_deliverable harticulate he
      exact .inr ⟨e, rfl, rfl, e.status_ne_ok, channelAfter_error hmessage _⟩
  · rw [Session.lastError_after_from Session.allHeld_empty hbrings]
    exact or_iff_right fun h => by cases h.1
  · intro m n k variant output bound hmade other handle request e hl hhandle he
    obtain ⟨-, -, -, -, -, hfaithful⟩ := newKernel_eq_ok hmade
    have hmessage : Deliverable e.message := by
      refine deliverable_cause (fun handle' bound' hhandle' hl' => ?_) (Session.cause_of_failure he)
      obtain rfl : handle = handle' := Option.some.inj (hhandle.symm.trans hhandle')
      obtain rfl : bound = bound' := Option.some.inj (hl.symm.trans hl')
      exact articulate_of_faithful hfaithful
    have hask : request ≠ .lastError := by
      rintro rfl
      cases hhandle
    refine ⟨hmessage, ?_⟩
    rw [(Session.outcome_step machineThreads other hask).2, he]
    exact channelAfter_error hmessage _

/-- A kernel from inside refuses a call, a later call goes well, and the refusal is what is told. -/
theorem error_channel_inside_kernel :
    let bound : Bound :=
      { shape := ⟨0, 0, 0⟩, kernel := .failing "busy" true 0 "no slot", aLen := 0, bLen := 0, cLen := 0
        aLen_eq := rfl, bLen_eq := rfl, cLen_eq := rfl }
    let session := ({} : Session).after 1 [.hold "h" bound, .call (.invoke "h" none none none),
      .call (.dimensions "h" (true, true, true) (7, 7, 7))]
    Articulate bound.kernel ∧
      session.step 1 .lastError =
        (.message (some "invalid argument: no slot"), { session with lastError := none }) := by
  intro bound session
  have harticulate : Articulate bound.kernel := by
    intro s a b c e he
    cases he
    decide
  have hmoves : ∀ handle other, Move.hold handle other ∈ [.hold "h" bound,
      .call (.invoke "h" none none none), .call (.dimensions "h" (true, true, true) (7, 7, 7))] →
      Articulate other.kernel := by
    intro handle other hmem
    simp only [List.mem_cons, Move.hold.injEq, reduceCtorEq, List.not_mem_nil, or_false] at hmem
    obtain ⟨-, rfl⟩ := hmem
    exact harticulate
  obtain ⟨-, ⟨told, hstep, htold⟩, -⟩ := error_channel 1 hmoves
  obtain rfl : told = some "invalid argument: no slot" := (htold _).2
    ⟨[.hold "h" bound], .invoke "h" none none none, [.call (.dimensions "h" (true, true, true) (7, 7, 7))],
      .refused (.invalidArgument (.custom "no slot")), rfl, rfl, rfl, ⟨nofun, rfl⟩, trivial⟩
  exact ⟨harticulate, hstep⟩

end DenseMatmul.Boundary
