import DenseMatmul.Error
/-!
# Logged results

What a call reports on its way is part of its result: `Logged ε α` is an answer or a failure together
with the events reported until then. `result_bind` says that the events never bear on the answer.
-/

namespace DenseMatmul

inductive Level where
  | trace
  | debug
  | info
  | warn
  deriving DecidableEq

def Level.name : Level → String
  | .trace => "TRACE"
  | .debug => "DEBUG"
  | .info => "INFO"
  | .warn => "WARN"

/-- One report. -/
structure Event where
  level : Level
  text : String
  deriving DecidableEq

def Event.line (e : Event) : String := s!"{e.level.name} {e.text}"

/-- An answer, or a failure with errors in `ε`, and the events reported, oldest first. -/
structure Logged (ε α : Type) where
  result : Except (Failure ε) α
  log : List Event := []

namespace Logged

variable {ε δ α β : Type}

instance : Monad (Logged ε) where
  pure x := { result := .ok x }
  bind x f :=
    match x.result with
    | .error e => { result := .error e, log := x.log }
    | .ok y => { result := (f y).result, log := x.log ++ (f y).log }

def refuse (e : ε) : Logged ε α := { result := .error (.refused e) }

def halt (f : Fault) : Logged ε α := { result := .error (.halted f) }

def emit (level : Level) (text : String) : Logged ε Unit :=
  { result := .ok (), log := [{ level, text }] }

/-- An answer or an error, with nothing reported. -/
def ofExcept (x : Except ε α) : Logged ε α := { result := x.mapError .refused }

/-- An answer or a fault, with nothing reported. -/
def ofFault (x : Except Fault α) : Logged ε α := { result := x.mapError .halted }

def mapError (f : ε → δ) (x : Logged ε α) : Logged δ α :=
  { result := x.result.mapError (Failure.map f), log := x.log }

/-! ## Results without their events -/

@[simp] theorem result_pure (x : α) : (pure x : Logged ε α).result = .ok x := rfl

@[simp] theorem result_bind (x : Logged ε α) (f : α → Logged ε β) :
    (x >>= f).result = x.result >>= fun y => (f y).result := by
  obtain ⟨_ | _, _⟩ := x <;> rfl

/-- A sequence gives an answer if its parts do. -/
theorem bind_eq_ok_iff {x : Logged ε α} {f : α → Logged ε β} {r : β} :
    (x >>= f).result = .ok r ↔ ∃ y, x.result = .ok y ∧ (f y).result = .ok r := by
  rw [result_bind]
  cases x.result with
  | error e => simp [bind, Except.bind]
  | ok y => simp [bind, Except.bind]

/-- A sequence fails with its first part, or with the second after an answer of the first. -/
theorem bind_eq_error_iff {x : Logged ε α} {f : α → Logged ε β} {e : Failure ε} :
    (x >>= f).result = .error e ↔
      x.result = .error e ∨ ∃ y, x.result = .ok y ∧ (f y).result = .error e := by
  rw [result_bind]
  cases x.result with
  | error e' => simp [bind, Except.bind]
  | ok y => simp [bind, Except.bind]

@[simp] theorem result_refuse (e : ε) : (refuse e : Logged ε α).result = .error (.refused e) := rfl

@[simp] theorem result_halt (f : Fault) : (halt f : Logged ε α).result = .error (.halted f) := rfl

@[simp] theorem result_emit (level : Level) (text : String) :
    (emit level text : Logged ε Unit).result = .ok () := rfl

@[simp] theorem result_ofExcept (x : Except ε α) : (ofExcept x).result = x.mapError .refused := rfl

@[simp] theorem result_ofFault (x : Except Fault α) :
    (ofFault x : Logged ε α).result = x.mapError .halted := rfl

@[simp] theorem mapError_ok (f : ε → δ) (y : α) : (Except.ok y).mapError f = .ok y := rfl

@[simp] theorem mapError_error (f : ε → δ) (e : ε) :
    (Except.error e : Except ε α).mapError f = .error (f e) := rfl

theorem mapError_bind (g : ε → δ) (x : Except ε α) (f : α → Except ε β) :
    (x >>= f).mapError g = x.mapError g >>= fun y => (f y).mapError g := by
  cases x <;> rfl

theorem mapError_eq_ok_iff {x : Except ε α} {f : ε → δ} {y : α} :
    x.mapError f = .ok y ↔ x = .ok y := by
  cases x <;> simp

theorem result_mapError_eq_ok_iff {x : Logged ε α} {f : ε → δ} {y : α} :
    (x.mapError f).result = .ok y ↔ x.result = .ok y :=
  mapError_eq_ok_iff

end Logged

end DenseMatmul
