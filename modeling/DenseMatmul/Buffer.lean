import DenseMatmul.Error
import DenseMatmul.Single
/-!
# Buffers

A buffer is a flat run of numbers. Reading past its end is a fault, never a default.
-/

namespace DenseMatmul

/-- A flat run of numbers. -/
abbrev Buffer := Array Single

namespace Buffer

def read (b : Buffer) (i : Nat) : Except Fault Single :=
  if h : i < b.size then .ok b[i] else .error .pastEnd

/-- The elements from `start` up to but not including `stop`. -/
def slice (b : Buffer) (start stop : Nat) : Except Fault Buffer :=
  if start ≤ stop ∧ stop ≤ b.size then .ok (b.extract start stop) else .error .pastEnd

theorem read_eq_ok_iff {b : Buffer} {i : Nat} {x : Single} :
    b.read i = .ok x ↔ b[i]? = some x := by
  unfold read
  split <;> simp_all

theorem slice_eq_ok_iff {b out : Buffer} {start stop : Nat} :
    b.slice start stop = .ok out ↔ start ≤ stop ∧ stop ≤ b.size ∧ b.extract start stop = out := by
  unfold slice
  split
  · simp_all
  · simp only [reduceCtorEq, false_iff]
    omega

end Buffer

end DenseMatmul
