import DenseMatmul.Kernel.Store
/-!
# What a run of stores leaves

A kernel that is right stores at every index the one value that belongs there. For a function from
indices to values, `run_map_write` gives the buffer that a list of such stores leaves: the value at
every index of the list, and elsewhere what was there before.
-/

namespace DenseMatmul.Step

/-- The store of the value that `f` has for an index. -/
def write (f : Nat → Single) (i : Nat) : Step := .ok ⟨i, f i⟩

/-- The buffer with its first `count` elements replaced by the values of `f`. -/
def fill (f : Nat → Single) (count : Nat) (c : Buffer) : Buffer :=
  c.mapIdx fun i x => if i < count then f i else x

@[simp] theorem size_fill (f : Nat → Single) (count : Nat) (c : Buffer) :
    (fill f count c).size = c.size := by simp [fill]

theorem fill_of_lt {f : Nat → Single} {count i : Nat} {c : Buffer} (hi : i < count)
    (hc : count ≤ c.size) : (fill f count c)[i]? = some (f i) := by
  simp [fill, hi, show i < c.size by omega]

theorem fill_of_le {f : Nat → Single} {count i : Nat} {old : Buffer} (hi : count ≤ i) :
    (fill f count old)[i]? = old[i]? := by
  simp only [fill, Array.getElem?_mapIdx, show ¬ i < count by omega, if_false]
  cases old[i]? <;> rfl

@[simp] theorem fill_zero (f : Nat → Single) (c : Buffer) : fill f 0 c = c :=
  Array.ext_getElem? fun _ => fill_of_le (Nat.zero_le _)

/-- A buffer is the filled one if it has the values of `f` up to `count` and its old elements from
there on. -/
theorem eq_fill {f : Nat → Single} {count : Nat} {old out : Buffer} (hc : count ≤ old.size)
    (hlt : ∀ i < count, out[i]? = some (f i)) (hle : ∀ i, count ≤ i → out[i]? = old[i]?) :
    out = fill f count old := by
  apply Array.ext_getElem?
  intro i
  rcases Nat.lt_or_ge i count with hi | hi
  · rw [hlt i hi, fill_of_lt hi hc]
  · rw [hle i hi, fill_of_le hi]

/-! ## Runs -/

/-- The first step decides whether the others are made. -/
theorem run_cons (step : Step) (rest : List Step) (c : Buffer) :
    run (step :: rest) c = match (run [step] c).result with
      | .ok _ => run rest (run [step] c).c
      | .error f => ⟨.error f, (run [step] c).c⟩ := by
  cases step with
  | error f => rfl
  | ok store => simp only [run]; split <;> rfl

theorem run_write {f : Nat → Single} {i : Nat} {c : Buffer} (hi : i < c.size) :
    run [write f i] c = ⟨.ok (), c.set i (f i)⟩ := by
  simp [run, write, hi]

theorem run_map_write (f : Nat → Single) (is : List Nat) (c : Buffer) (h : ∀ i ∈ is, i < c.size) :
    run (is.map (write f)) c = ⟨.ok (), c.mapIdx fun i x => if i ∈ is then f i else x⟩ := by
  induction is generalizing c with
  | nil =>
    refine congrArg (Run.mk (.ok ())) (Array.ext_getElem? fun i => ?_)
    simp
  | cons k is ih =>
    have hk : k < c.size := h k (by simp)
    have hrest : ∀ i ∈ is, i < (c.set k (f k)).size := fun i hi => by
      rw [Array.size_set]; exact h i (by simp [hi])
    rw [List.map_cons, run_cons, run_write hk]
    simp only
    rw [ih _ hrest, Run.mk.injEq]
    refine ⟨rfl, Array.ext_getElem? fun i => ?_⟩
    simp only [Array.getElem?_mapIdx, Array.getElem?_set, List.mem_cons]
    by_cases hik : k = i
    · subst hik; simp [hk]
    · simp [hik, Ne.symm hik]

/-- Storing the values of `f` at every index below `count`, in order. -/
theorem run_range_write (f : Nat → Single) (count : Nat) (c : Buffer) (h : count ≤ c.size) :
    run ((List.range count).map (write f)) c = ⟨.ok (), fill f count c⟩ := by
  rw [run_map_write f _ c (fun i hi => by have := List.mem_range.1 hi; omega)]
  simp [fill]

end DenseMatmul.Step
