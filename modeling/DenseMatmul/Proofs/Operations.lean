import DenseMatmul.Shape
/-!
# Counts of operations

The count of operations is multiplied up factor by factor and held at the largest word after each one.
Held on the way or only at the end makes no difference (`saturatingMul_saturatingMul`): once past the
limit, a factor of zero still takes the count to zero, and any other leaves it past the limit. So the
count is the exact one held once (`flops_eq`), and grows with every extent.
-/

namespace DenseMatmul

theorem saturatingMul_saturatingMul (x y z : Nat) :
    saturatingMul (saturatingMul x y) z = saturatingMul (x * y) z := by
  unfold saturatingMul
  rcases Nat.le_total (x * y) (wordLimit - 1) with hfits | hpast
  · rw [Nat.min_eq_left hfits]
  · rw [Nat.min_eq_right hpast]
    rcases Nat.eq_zero_or_pos z with rfl | hz
    · rfl
    · have hheld : wordLimit - 1 ≤ (wordLimit - 1) * z := Nat.le_mul_of_pos_right _ hz
      have hexact : wordLimit - 1 ≤ x * y * z := Nat.le_trans hpast (Nat.le_mul_of_pos_right _ hz)
      rw [Nat.min_eq_right hheld, Nat.min_eq_right hexact]

namespace Shape

variable {s larger : Shape}

theorem flops_eq (s : Shape) : s.flops = min (2 * (s.m * s.n * s.k)) (wordLimit - 1) := calc
  s.flops = saturatingMul (saturatingMul (s.m * s.n) s.k) 2 := by
    rw [flops, saturatingMul_saturatingMul s.m]
  _ = saturatingMul (s.m * s.n * s.k) 2 := saturatingMul_saturatingMul ..
  _ = min (2 * (s.m * s.n * s.k)) (wordLimit - 1) := by rw [saturatingMul, Nat.mul_comm]

theorem flops_mono (hm : s.m ≤ larger.m) (hn : s.n ≤ larger.n) (hk : s.k ≤ larger.k) :
    s.flops ≤ larger.flops := by
  have hexact : s.m * s.n * s.k ≤ larger.m * larger.n * larger.k :=
    Nat.mul_le_mul (Nat.mul_le_mul hm hn) hk
  rw [flops_eq, flops_eq]
  omega

/-- The exact count is even and the largest word is odd, so the one is only answered in place of a
count that is too large. -/
theorem flops_eq_largest_iff (s : Shape) :
    s.flops = wordLimit - 1 ↔ wordLimit ≤ 2 * (s.m * s.n * s.k) := by
  rw [flops_eq]
  unfold wordLimit
  omega

/-- The count of operations is the exact one, held at the largest word. That word is answered where the
exact count is no word, and nowhere else. The count never falls as an extent grows. -/
theorem flops_exact (s : Shape) :
    s.flops = min (2 * s.m * s.n * s.k) (wordLimit - 1) ∧
      (s.flops = wordLimit - 1 ↔ wordLimit ≤ 2 * s.m * s.n * s.k) ∧
      ∀ larger : Shape, s.m ≤ larger.m → s.n ≤ larger.n → s.k ≤ larger.k →
        s.flops ≤ larger.flops := by
  have hproduct : 2 * s.m * s.n * s.k = 2 * (s.m * s.n * s.k) := by
    simp only [Nat.mul_assoc]
  rw [hproduct]
  exact ⟨flops_eq s, flops_eq_largest_iff s, fun larger hm hn hk => flops_mono hm hn hk⟩

/-- The product of the first two extents is no word. The third is zero, and then one. -/
theorem flops_exact_large_pair :
    let zero : Shape := ⟨0x100000000, 0x100000000, 0⟩
    let one : Shape := ⟨0x100000000, 0x100000000, 1⟩
    zero.flops = 0 ∧ one.flops = wordLimit - 1 ∧
      (zero.m ≤ one.m ∧ zero.n ≤ one.n ∧ zero.k ≤ one.k) ∧ zero.flops ≤ one.flops := by
  intro zero one
  have hle : zero.m ≤ one.m ∧ zero.n ≤ one.n ∧ zero.k ≤ one.k := by decide
  refine ⟨(flops_exact zero).1.trans (by decide), (flops_exact one).2.1.2 (by decide), hle, ?_⟩
  exact (flops_exact zero).2.2 one hle.1 hle.2.1 hle.2.2

end Shape

end DenseMatmul
