import DenseMatmul.Proofs.Differences
import DenseMatmul.Proofs.SingleLaws
import DenseMatmul.Tolerance
/-!
# What a tolerance accepts

A tolerance does not tell the expected number from the actual one. It accepts equal numbers, the two
zeros among them, and any two NaNs, and it never brings a NaN and a number together, nor an infinity and
anything else. None of this looks at the bounds: NaNs and infinities are judged by kind before any bound
is read, and equal numbers are close before one is.
-/

namespace DenseMatmul

/-! ## Equal numbers -/

namespace Single

variable {x y : Single}

theorem equal_comm (x y : Single) : x.equal y = y.equal x := by
  unfold equal
  rw [Bool.and_comm (!x.isNaN), Bool.beq_comm]

theorem place_eq_zero_iff : x.place = 0 ↔ x.IsZero := by
  rw [place_eq, isZero_iff]
  cases Rounding.sign x.raw <;> simp only [Float.Model.UnpackedFloat.Sign.apply] <;> omega

/-- Only the two zeros share a place. -/
theorem place_eq_place_iff : x.place = y.place ↔ x = y ∨ x.IsZero ∧ y.IsZero := by
  constructor
  · intro h
    by_cases hx : x.IsZero
    · exact .inr ⟨hx, place_eq_zero_iff.1 (h.symm.trans (place_eq_zero_iff.2 hx))⟩
    · rw [place_eq, place_eq] at h
      obtain ⟨hsign, hmagnitude⟩ :=
        Rounding.Sign.apply_inj (Nat.pos_of_ne_zero (mt isZero_iff.2 hx)) h
      exact .inl (raw_inj (Rounding.eq_of_magnitude hsign hmagnitude))
  · rintro (rfl | ⟨hx, hy⟩)
    · rfl
    · rw [place_eq_zero_iff.2 hx, place_eq_zero_iff.2 hy]

theorem equal_of_isZero (hx : x.IsZero) (hy : y.IsZero) : x.equal y := by
  rcases hx with rfl | rfl <;> rcases hy with rfl | rfl <;> decide

/-- An infinity equals only itself. -/
theorem equal_iff_of_isInfinite (h : x.isInfinite) (hx : x.isNaN = false) (hy : y.isNaN = false) :
    x.equal y ↔ y = x := by
  have hzero : ¬ x.IsZero := by
    rintro (rfl | rfl)
    · exact absurd h (by decide)
    · exact absurd h (by decide)
  simp only [equal, hx, hy, Bool.not_false, Bool.true_and, beq_iff_eq, place_eq_place_iff]
  exact ⟨fun h => (h.resolve_right fun h => hzero h.1).symm, fun h => .inl h.symm⟩

theorem not_isNaN_of_equal (h : x.equal y) : x.isNaN = false ∧ y.isNaN = false := by
  simp only [equal, Bool.and_eq_true, Bool.not_eq_true'] at h
  exact h.1

theorem not_isNaN_of_isInfinite (h : x.isInfinite) : x.isNaN = false := by
  rw [isInfinite, beq_iff_eq] at h
  rw [isNaN, h]
  rfl

end Single

namespace Tolerance

variable {t : Tolerance} {x y : Single}

/-! ## Either way round -/

theorem distance_comm (x y : Single) : distance x y = distance y x := Single.abs_sub_comm x y

theorem steps_comm (x y : Single) : steps x y = steps y x := Nat.max_comm ..

/-- Of two numbers that are equally large the absolute values are the same. -/
theorem larger_comm (hx : x.isNaN = false) (hy : y.isNaN = false) : larger x y = larger y x := by
  simp only [larger, Single.abs_atMost_abs_iff hx hy, Single.abs_atMost_abs_iff hy hx]
  rcases Nat.lt_trichotomy x.magnitude.toNat y.magnitude.toNat with h | h | h
  · rw [if_neg (Nat.not_le.2 h), if_pos h.le]
  · rw [if_pos h.ge, if_pos h.le, Single.abs, Single.abs, UInt32.toNat_inj.1 h]
  · rw [if_pos h.le, if_neg (Nat.not_le.2 h)]

theorem absClose_comm (t : Tolerance) (x y : Single) : t.absClose x y = t.absClose y x := by
  unfold absClose
  rw [distance_comm]

theorem relClose_comm (hx : x.isNaN = false) (hy : y.isNaN = false) :
    t.relClose x y = t.relClose y x := by
  unfold relClose
  rw [Single.equal_comm, absClose_comm, distance_comm, larger_comm hx hy]

theorem ulpsClose_comm (t : Tolerance) (x y : Single) : t.ulpsClose x y = t.ulpsClose y x := by
  unfold ulpsClose
  rw [absClose_comm, Bool.beq_comm, steps_comm]

theorem accepts_comm (t : Tolerance) (x y : Single) : t.accepts x y = t.accepts y x := by
  unfold accepts
  rw [Bool.or_comm x.isNaN, Bool.and_comm x.isNaN, Bool.or_comm x.isInfinite, Single.equal_comm]
  split
  case isTrue hnan => rfl
  case isFalse hnan =>
    simp only [Bool.or_eq_true, not_or, Bool.not_eq_true] at hnan
    rw [absClose_comm, relClose_comm hnan.2 hnan.1, ulpsClose_comm]

/-! ## By kind -/

theorem accepts_of_equal (h : x.equal y) : t.accepts x y := by
  obtain ⟨hx, hy⟩ := Single.not_isNaN_of_equal h
  unfold accepts
  rw [if_neg (by simp [hx, hy])]
  split
  case isTrue => exact h
  case isFalse => simp [relClose, h]

theorem accepts_of_isNaN (h : x.isNaN) : t.accepts x y ↔ y.isNaN := by
  unfold accepts
  rw [if_pos (by simp [h])]
  simp [h]

theorem accepts_of_isInfinite (h : x.isInfinite) : t.accepts x y ↔ y = x := by
  have hx := Single.not_isNaN_of_isInfinite h
  unfold accepts
  split
  case isTrue hnan =>
    have hy : y.isNaN := by simpa [hx] using hnan
    refine iff_of_false (by simp [hx]) ?_
    rintro rfl
    rw [hx] at hy
    cases hy
  case isFalse hnan =>
    have hy : y.isNaN = false := by simpa [hx] using hnan
    rw [if_pos (by simp [h])]
    exact Single.equal_iff_of_isInfinite h hx hy

/-- Whatever its bounds are, NaNs, infinities and negative ones too, a tolerance judges two numbers alike
either way round. It accepts any that are equal, and zeros of either sign; for a NaN it accepts the NaNs
and for an infinity that infinity, and nothing else. -/
theorem acceptance_laws (t : Tolerance) (x y : Single) :
    t.accepts x y = t.accepts y x ∧
      (x.equal y → t.accepts x y) ∧ (x.IsZero → y.IsZero → t.accepts x y) ∧
      (x.isNaN → (t.accepts x y ↔ y.isNaN)) ∧ (x.isInfinite → (t.accepts x y ↔ y = x)) :=
  ⟨accepts_comm t x y, accepts_of_equal,
    fun hx hy => accepts_of_equal (Single.equal_of_isZero hx hy), accepts_of_isNaN,
    accepts_of_isInfinite⟩

/-- No bound that could accept anything, and no bound that could refuse it. -/
theorem acceptance_laws_odd_bounds :
    let none : Tolerance := ⟨.nan, ⟨0xff800000⟩, 0⟩
    let all : Tolerance := ⟨.infinity, .infinity, 0xffffffff⟩
    let largest : Single := ⟨0x7f7fffff⟩
    none.accepts .zero .negativeZero ∧ none.accepts .nan ⟨0xff800001⟩ ∧
      ¬ all.accepts .infinity largest ∧ ¬ all.accepts largest .infinity ∧
      ¬ all.accepts .nan largest := by
  intro none all largest
  have hinfinity : ¬ all.accepts .infinity largest := fun h =>
    absurd (((acceptance_laws all .infinity largest).2.2.2.2 rfl).1 h) (by decide)
  refine ⟨(acceptance_laws none _ _).2.2.1 (.inl rfl) (.inr rfl),
    ((acceptance_laws none _ _).2.2.2.1 rfl).2 rfl, hinfinity, ?_, fun h =>
      absurd (((acceptance_laws all .nan largest).2.2.2.1 rfl).1 h) (by decide)⟩
  rwa [← (acceptance_laws all .infinity largest).1]

end Tolerance

end DenseMatmul
