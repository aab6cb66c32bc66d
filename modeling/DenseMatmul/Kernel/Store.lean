import DenseMatmul.Buffer
/-!
# Stores

A kernel writes its output one element at a time. A list of steps says what it writes and in which
order; a step that is a fault ends the run, with the stores before it made and none after it.
-/

namespace DenseMatmul

/-- One element written. -/
structure Store where
  index : Nat
  value : Single
  deriving DecidableEq

/-- The store in a buffer that starts `base` elements later. -/
def Store.shift (base : Nat) (store : Store) : Store := { store with index := base + store.index }

/-- A store, or the fault that stands in its place. -/
abbrev Step := Except Fault Store

/-- The end of a run of steps and the buffer it leaves. -/
structure Run where
  result : Except Fault Unit
  c : Buffer

namespace Step

/-- Makes the stores in order. -/
def run : List Step → Buffer → Run
  | [], c => ⟨.ok (), c⟩
  | .error f :: _, c => ⟨.error f, c⟩
  | .ok store :: rest, c =>
    if h : store.index < c.size then run rest (c.set store.index store.value)
    else ⟨.error .pastEnd, c⟩

@[simp] theorem size_run (steps : List Step) (c : Buffer) : (run steps c).c.size = c.size := by
  induction steps generalizing c with
  | nil => rfl
  | cons step rest ih =>
    cases step with
    | error f => rfl
    | ok store =>
      simp only [run]
      split
      · rw [ih, Array.size_set]
      · rfl

end Step

namespace Run

/-- Goes on with a list of steps. A run that has stopped stays so, but the steps are made. -/
def andThen (r : Run) (steps : List Step) : Run :=
  let next := Step.run steps r.c
  match r.result, next.result with
  | .ok _, .ok _ => next
  | _, _ => ⟨.error .bandHalted, next.c⟩

@[simp] theorem c_andThen (r : Run) (steps : List Step) :
    (r.andThen steps).c = (Step.run steps r.c).c := by
  unfold andThen
  dsimp only
  split <;> rfl

end Run

namespace Step

/-- Runs several lists of steps on one buffer, one after the other. A fault ends its own list only;
the others still run, and the whole then stops. -/
def runAll (lists : List (List Step)) (c : Buffer) : Run := lists.foldl Run.andThen ⟨.ok (), c⟩

@[simp] theorem size_runAll (lists : List (List Step)) (c : Buffer) :
    (runAll lists c).c.size = c.size := by
  suffices ∀ r : Run, (lists.foldl Run.andThen r).c.size = r.c.size from this ⟨.ok (), c⟩
  induction lists with
  | nil => intro r; rfl
  | cons steps rest ih =>
    intro r
    rw [List.foldl_cons, ih, Run.c_andThen, size_run]

end Step

end DenseMatmul
