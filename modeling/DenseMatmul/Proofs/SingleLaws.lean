import DenseMatmul.Proofs.WholeNumbers
/-!
# Laws of single precision

What arithmetic does with zeros, with one and with what is not a number. Adding a zero of either sign
changes no number but a negative zero, which a positive one takes over; multiplying by one changes no
number at all, and by a zero makes every number a zero. A sum is a negative zero only if both of its
parts are (`add_eq_negativeZero_iff`): parts that cancel leave a positive zero, and no sum that is not
zero is rounded to one (`Rounding.magnitude_pack_normalize_pos`). What is not a number spreads.
-/

namespace DenseMatmul

open Float.Model Float.Model.UnpackedFloat

namespace Rounding

variable {spec : Format}

protected theorem Sign.mul_comm (s s' : Sign) : s * s' = s' * s := by
  cases s <;> cases s' <;> rfl

protected theorem mul_comm (spec : Format) (v w : UnpackedFloat) :
    UnpackedFloat.mul spec v w = UnpackedFloat.mul spec w v := by
  cases v <;> cases w <;>
    simp only [UnpackedFloat.mul, Sign.mul_comm, Nat.mul_comm, Int.add_comm]

/-- The smallest number is in place one, so no multiple of it is rounded to zero. -/
theorem magnitude_pack_normalize_pos (heb : 2 ≤ spec.exponentBits) {z : Int} (hz : z ≠ 0)
    (zeroSign : Sign) :
    0 < magnitude (UnpackedFloat.pack spec
      (UnpackedFloat.normalize spec z spec.minExponent zeroSign)) := by
  obtain ⟨s, m, hm, rfl⟩ := exists_apply hz
  have hone : units spec 1 = 1 := units_of_lt (Nat.one_lt_two_pow (Nat.ne_of_gt spec.hm))
  have hplace : place spec (units spec 1) spec.minExponent = 1 := place_units Nat.one_pos
  rw [hone] at hplace
  have hmono : place spec 1 spec.minExponent ≤ place spec m spec.minExponent := place_mono _ hm
  rw [hplace] at hmono
  rw [normalize_apply s zeroSign hm, magnitude_pack_round s hm _ heb]
  exact lt_min hmono limit_pos

/-- A finite number is so many of the smallest one, and no less is kept of it. -/
theorem normalize_signedUnits {b : BitVec spec.numBits} (h : magnitude b < limit spec) :
    UnpackedFloat.normalize spec (signedUnits b) spec.minExponent (sign b) =
      UnpackedFloat.unpack spec b := by
  rcases Nat.eq_zero_or_pos (magnitude b) with hzero | hpos
  · rw [signedUnits, hzero, units_zero, Int.natCast_zero, Sign.apply_zero, normalize_zero,
      unpack_zero hzero]
  · rw [signedUnits, normalize_apply _ _ (units_pos hpos), round_units _ hpos, unpack_finite hpos h]

end Rounding

namespace Single

variable {x y z : Single}

/-! ## Zeros -/

def negativeZero : Single := ⟨0x80000000⟩

theorem zero_ne_negativeZero : zero ≠ negativeZero := by decide

/-- A zero of either sign. -/
def IsZero (x : Single) : Prop := x = .zero ∨ x = .negativeZero

instance (x : Single) : Decidable x.IsZero := inferInstanceAs (Decidable (_ ∨ _))

/-- The number itself, but for a negative zero the positive one. -/
def withPositiveZero (x : Single) : Single := if x = .negativeZero then .zero else x

theorem magnitude_raw_of_isZero (h : x.IsZero) : Rounding.magnitude x.raw = 0 := by
  rcases h with rfl | rfl <;> decide

theorem isZero_iff : x.IsZero ↔ Rounding.magnitude x.raw = 0 := by
  refine ⟨magnitude_raw_of_isZero, fun h => ?_⟩
  -- The sign is all that is left to tell two zeros apart.
  cases hsign : Rounding.sign x.raw with
  | positive =>
    have hzero : Rounding.sign Single.zero.raw = .positive := rfl
    exact .inl (raw_inj (Rounding.eq_of_magnitude (hsign.trans hzero.symm)
      (h.trans (magnitude_raw_of_isZero (.inl rfl)).symm)))
  | negative =>
    have hzero : Rounding.sign negativeZero.raw = .negative := rfl
    exact .inr (raw_inj (Rounding.eq_of_magnitude (hsign.trans hzero.symm)
      (h.trans (magnitude_raw_of_isZero (.inr rfl)).symm)))

theorem withPositiveZero_of_not_isZero (h : ¬ x.IsZero) : x.withPositiveZero = x :=
  if_neg fun hx => h (.inr hx)

theorem withPositiveZero_ne (x : Single) : x.withPositiveZero ≠ .negativeZero := by
  unfold withPositiveZero
  split
  · decide
  · assumption

theorem isFinite_withPositiveZero (h : x.isFinite) : x.withPositiveZero.isFinite := by
  unfold withPositiveZero
  split
  · decide
  · exact h

/-- A zero of either sign is no more than nothing to a number that is none. -/
theorem add_isZero (hx : x.isFinite) (hne : ¬ x.IsZero) (hz : z.IsZero) : x + z = x ∧ z + x = x := by
  have hpos : 0 < Rounding.magnitude x.raw := Nat.pos_of_ne_zero (mt isZero_iff.2 hne)
  have hunpack := Rounding.unpack_finite hpos (lt_limit_iff.2 hx)
  have hzero := Rounding.unpack_zero (isZero_iff.1 hz)
  have hpack := Rounding.pack_unpack_of_finite (by decide) (lt_limit_iff.2 hx)
  rw [hunpack] at hpack
  constructor
  · apply raw_inj
    rw [raw_add, hunpack, hzero]
    exact hpack
  · apply raw_inj
    rw [raw_add, hunpack, hzero]
    exact hpack

/-- Adding a zero of either sign changes no number but a negative zero. -/
theorem add_of_isZero (hx : x.isFinite) (hne : x ≠ .negativeZero) (hz : z.IsZero) : x + z = x := by
  by_cases hzero : x.IsZero
  · obtain rfl : x = .zero := hzero.resolve_right hne
    rcases hz with rfl | rfl <;> decide
  · exact (add_isZero hx hzero hz).1

theorem zero_add_of_isFinite (hx : x.isFinite) : .zero + x = x.withPositiveZero := by
  by_cases hzero : x.IsZero
  · rcases hzero with rfl | rfl <;> decide
  · rw [withPositiveZero_of_not_isZero hzero]
    exact (add_isZero hx hzero (.inl rfl)).2

/-! ## Products -/

/-- Multiplication is commutative, down to the bits. -/
protected theorem mul_comm (x y : Single) : x * y = y * x := by
  apply raw_inj
  rw [raw_mul, raw_mul, Rounding.mul_comm]

theorem one_mul_of_isFinite (hx : x.isFinite) : .one * x = x := by
  have hone : Rounding.signedUnits Single.one.raw = (2 ^ Rounding.depth .binary32 : Nat) := by decide
  have hsign : Rounding.sign Single.one.raw * Rounding.sign x.raw = Rounding.sign x.raw := by
    have hpositive : Rounding.sign Single.one.raw = .positive := rfl
    rw [hpositive]
    cases Rounding.sign x.raw <;> rfl
  have hexponent : 2 * Format.binary32.minExponent =
      Format.binary32.minExponent - Rounding.depth .binary32 := by decide
  apply raw_inj
  rw [raw_mul, Rounding.mul_unpack (lt_limit_iff.2 (by decide)) (lt_limit_iff.2 hx), hone, hsign,
    Int.mul_comm, hexponent, Rounding.normalize_mul_pow,
    Rounding.normalize_signedUnits (lt_limit_iff.2 hx)]
  exact Rounding.pack_unpack_of_finite (by decide) (lt_limit_iff.2 hx)

theorem mul_one_of_isFinite (hx : x.isFinite) : x * .one = x := by
  rw [Single.mul_comm, one_mul_of_isFinite hx]

theorem isZero_zero_mul (hx : x.isFinite) : (.zero * x).IsZero := by
  have hzero : Rounding.signedUnits Single.zero.raw = 0 := by decide
  rw [isZero_iff, raw_mul, Rounding.mul_unpack (lt_limit_iff.2 (by decide)) (lt_limit_iff.2 hx),
    hzero, Int.zero_mul, Rounding.normalize_zero, Rounding.magnitude_pack_zero]

theorem isZero_mul_zero (hx : x.isFinite) : (x * .zero).IsZero := by
  rw [Single.mul_comm]
  exact isZero_zero_mul hx

/-! ## What is not finite -/

/-- An infinity, or not a number. -/
def Unbounded : UnpackedFloat → Prop
  | .infinity _ | .notANumber => True
  | .finite .. | .zero _ => False

theorem Unbounded.add {v w : UnpackedFloat} (h : Unbounded v ∨ Unbounded w) :
    Unbounded (UnpackedFloat.add .binary32 v w) := by
  cases v with
  | notANumber => trivial
  | infinity s =>
    cases w with
    | infinity s' =>
      -- Infinities of either sign cancel to what is not a number.
      simp only [UnpackedFloat.add]
      split <;> trivial
    | _ => trivial
  | _ =>
    cases w with
    | notANumber | infinity _ => trivial
    | _ => exact absurd h (by simp [Unbounded])

theorem limit_le_of_unbounded {v : UnpackedFloat} (h : Unbounded v) :
    Rounding.limit .binary32 ≤ Rounding.magnitude (UnpackedFloat.pack .binary32 v) := by
  cases v with
  | notANumber => decide
  | infinity s => exact (Rounding.magnitude_pack_infinity s).ge
  | _ => exact absurd h id

theorem unbounded_unpack (h : ¬ x.isFinite) : Unbounded (UnpackedFloat.unpack .binary32 x.raw) := by
  rcases Nat.eq_or_lt_of_le (Nat.not_lt.1 (mt lt_limit_iff.1 h)) with heq | hlt
  · rw [Rounding.unpack_infinity heq.symm]
    trivial
  · rw [Rounding.unpack_nan hlt]
    trivial

/-- A sum is finite only if both of its parts are. -/
theorem isFinite_of_add (h : (x + y).isFinite) : x.isFinite ∧ y.isFinite := by
  by_contra hparts
  rw [not_and_or] at hparts
  have hsum := limit_le_of_unbounded (Unbounded.add (hparts.imp unbounded_unpack unbounded_unpack))
  rw [← raw_add] at hsum
  exact absurd (lt_limit_iff.2 h) (Nat.not_lt.2 hsum)

/-! ## Negative zeros -/

/-- A sum is a negative zero only if both of its parts are. -/
theorem add_eq_negativeZero_iff :
    x + y = .negativeZero ↔ x = .negativeZero ∧ y = .negativeZero := by
  refine ⟨fun h => ?_, by rintro ⟨rfl, rfl⟩; decide⟩
  obtain ⟨hx, hy⟩ := isFinite_of_add (x := x) (y := y) (by rw [h]; decide)
  have hleft : x = .negativeZero := by
    by_contra hne
    have hpositive : Rounding.magnitude x.raw = 0 → Rounding.sign x.raw = .positive := by
      intro hzero
      rw [(isZero_iff.2 hzero).resolve_right hne]
      rfl
    -- The exact sum is zero, which is a positive one, or it is rounded to no zero at all.
    have hraw := raw_add x y
    rw [Rounding.add_unpack (lt_limit_iff.2 hx) (lt_limit_iff.2 hy) hpositive, h] at hraw
    by_cases hsum : Rounding.signedUnits x.raw + Rounding.signedUnits y.raw = 0
    · rw [hsum, Rounding.normalize_zero] at hraw
      have hsign := congrArg Rounding.sign hraw
      rw [Rounding.sign_pack_zero] at hsign
      cases hsign
    · have hpos : 0 < Rounding.magnitude negativeZero.raw := by
        rw [hraw]
        exact Rounding.magnitude_pack_normalize_pos (by decide) hsum .positive
      exact absurd hpos (by decide)
  refine ⟨hleft, ?_⟩
  rw [hleft] at h
  by_cases hzero : y.IsZero
  · rcases hzero with rfl | rfl
    · exact absurd h (by decide)
    · rfl
  · exact (add_isZero hy hzero (.inr rfl)).2.symm.trans h

/-! ## What is not a number -/

theorem unpack_of_isNaN (h : x.isNaN) : UnpackedFloat.unpack .binary32 x.raw = .notANumber :=
  Rounding.unpack_nan (limit_lt_iff.2 h)

theorem add_of_isNaN (h : x.isNaN ∨ y.isNaN) : x + y = .nan := by
  apply raw_inj
  rw [raw_add]
  rcases h with h | h <;> rw [unpack_of_isNaN h]
  · rfl
  · cases UnpackedFloat.unpack .binary32 x.raw <;> rfl

theorem mul_of_isNaN (h : x.isNaN ∨ y.isNaN) : x * y = .nan := by
  apply raw_inj
  rw [raw_mul]
  rcases h with h | h <;> rw [unpack_of_isNaN h]
  · rfl
  · cases UnpackedFloat.unpack .binary32 x.raw <;> rfl

end Single

end DenseMatmul
