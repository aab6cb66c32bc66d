import DenseMatmul.Proofs.Narrowing
/-!
# Widening and narrowing

Widening a finite number keeps its value, and narrowing takes the widened number back. So a sum of
whole numbers in double precision, narrowed, is the sum in single precision as long as it has no
more than 24 bits.
-/

namespace DenseMatmul.Single

open Float.Model Float.Model.UnpackedFloat
open Rounding (units units_of_lt units_fields limit)

/-! ## The bits of a widened number -/

theorem toNat_widen_normal {g : UInt32} (hlow : 0x00800000 ≤ g.toNat) (h : g.toNat < 0x7f800000) :
    (widenMagnitude g).toNat = (g.toNat / 2 ^ 23 + 896) * 2 ^ 52 + g.toNat % 2 ^ 23 * 2 ^ 29 := by
  have hnan : ¬ 0x7f800000 < g := by simp [UInt32.lt_iff_toNat_lt]; omega
  have hinfinity : ¬ (g == 0x7f800000) = true := by simp [← UInt32.toNat_inj]; omega
  have hnormal : 0x00800000 ≤ g := UInt32.le_iff_toNat_le.2 hlow
  rw [widenMagnitude, if_neg hnan, if_neg hinfinity, if_pos hnormal]
  simp only [UInt64.toNat_add, UInt64.toNat_shiftLeft, UInt32.toNat_toUInt64, Nat.shiftLeft_eq,
    UInt64.reduceToNat, Nat.reduceMod]
  omega

theorem toNat_widen_zero : (widenMagnitude 0).toNat = 0 := rfl

theorem log2_of_subnormal {g : Nat} (hpos : 0 < g) (h : g < 0x00800000) : g.log2 < 23 :=
  (Nat.log2_lt (Nat.ne_of_gt hpos)).2 h

/-- A subnormal fraction moved up until its leading bit is the hidden one. -/
theorem two_pow_add_fraction {g : Nat} (hpos : 0 < g) (h : g < 0x00800000) :
    2 ^ 52 + (g - 2 ^ g.log2) * 2 ^ (52 - g.log2) = g * 2 ^ (52 - g.log2) := by
  have hlog := log2_of_subnormal hpos h
  have hsplit : 2 ^ 52 = 2 ^ g.log2 * 2 ^ (52 - g.log2) := by
    rw [← Nat.pow_add]
    congr 1
    omega
  rw [hsplit, ← Nat.add_mul, Nat.add_sub_cancel' (Nat.log2_self_le (Nat.ne_of_gt hpos))]

theorem fraction_lt {g : Nat} (hpos : 0 < g) (h : g < 0x00800000) :
    (g - 2 ^ g.log2) * 2 ^ (52 - g.log2) < 2 ^ 52 := by
  have hlog := log2_of_subnormal hpos h
  have hsum := two_pow_add_fraction hpos h
  have hbits : g * 2 ^ (52 - g.log2) < 2 ^ (g.log2 + 1) * 2 ^ (52 - g.log2) :=
    Nat.mul_lt_mul_of_pos_right Nat.lt_log2_self (Nat.two_pow_pos _)
  rw [← Nat.pow_add, show g.log2 + 1 + (52 - g.log2) = 53 by omega] at hbits
  omega

theorem toNat_widen_subnormal {g : UInt32} (hpos : 0 < g.toNat) (h : g.toNat < 0x00800000) :
    (widenMagnitude g).toNat =
      (g.toNat.log2 + 874) * 2 ^ 52 + (g.toNat - 2 ^ g.toNat.log2) * 2 ^ (52 - g.toNat.log2) := by
  have hnan : ¬ 0x7f800000 < g := by simp [UInt32.lt_iff_toNat_lt]; omega
  have hinfinity : ¬ (g == 0x7f800000) = true := by simp [← UInt32.toNat_inj]; omega
  have hnormal : ¬ 0x00800000 ≤ g := by simp [UInt32.le_iff_toNat_le]; omega
  have hzero : ¬ (g == 0) = true := by simp [← UInt32.toNat_inj]; omega
  have hlog := log2_of_subnormal hpos h
  have hfraction := fraction_lt hpos h
  rw [widenMagnitude, if_neg hnan, if_neg hinfinity, if_neg hnormal, if_neg hzero]
  simp only [UInt64.toNat_ofNat', Nat.shiftLeft_eq, Nat.one_mul]
  exact Nat.mod_eq_of_lt (by omega)

/-- Widening is exact: every number is as many of the smallest double-precision numbers. -/
theorem units_widenMagnitude {g : UInt32} (h : g.toNat < 0x7f800000) :
    units .binary64 (widenMagnitude g).toNat = units .binary32 g.toNat * 2 ^ 925 := by
  rcases Nat.eq_zero_or_pos g.toNat with hzero | hpos
  · obtain rfl : g = 0 := UInt32.toNat_inj.1 hzero
    rw [toNat_widen_zero, Rounding.units_zero, hzero, Rounding.units_zero, Nat.zero_mul]
  rcases Nat.lt_or_ge g.toNat 0x00800000 with hsub | hnormal
  · have hlog := log2_of_subnormal hpos hsub
    have hdouble : units .binary64 ((g.toNat.log2 + 874) * 2 ^ 52 +
        (g.toNat - 2 ^ g.toNat.log2) * 2 ^ (52 - g.toNat.log2)) =
          (2 ^ 52 + (g.toNat - 2 ^ g.toNat.log2) * 2 ^ (52 - g.toNat.log2)) *
            2 ^ (g.toNat.log2 + 873) := units_fields (fraction_lt hpos hsub)
    have hsingle : units .binary32 g.toNat = g.toNat := units_of_lt hsub
    have hexponent : 52 - g.toNat.log2 + (g.toNat.log2 + 873) = 925 := by omega
    rw [toNat_widen_subnormal hpos hsub, hdouble, hsingle, two_pow_add_fraction hpos hsub,
      Nat.mul_assoc, ← Nat.pow_add]
    exact congrArg (g.toNat * 2 ^ ·) hexponent
  · obtain ⟨q, f, hf, hg⟩ : ∃ q f, f < 2 ^ 23 ∧ g.toNat = (q + 1) * 2 ^ 23 + f :=
      ⟨g.toNat / 2 ^ 23 - 1, g.toNat % 2 ^ 23, by omega, by omega⟩
    have hbits : (widenMagnitude g).toNat = (q + 896 + 1) * 2 ^ 52 + f * 2 ^ 29 := by
      rw [toNat_widen_normal hnormal h]
      omega
    have hdouble : units .binary64 ((q + 896 + 1) * 2 ^ 52 + f * 2 ^ 29) =
        (2 ^ 52 + f * 2 ^ 29) * 2 ^ (q + 896) := units_fields (by simp only; omega)
    have hsingle : units .binary32 ((q + 1) * 2 ^ 23 + f) = (2 ^ 23 + f) * 2 ^ q := units_fields hf
    have hpow : 2 ^ 52 + f * 2 ^ 29 = (2 ^ 23 + f) * 2 ^ 29 := by omega
    have hexponent : 29 + (q + 896) = q + 925 := by omega
    rw [hbits, hdouble, hg, hsingle, hpow, Nat.mul_assoc, Nat.mul_assoc, ← Nat.pow_add,
      ← Nat.pow_add, hexponent]

theorem widenMagnitude_lt {g : UInt32} (h : g.toNat < 0x7f800000) :
    (widenMagnitude g).toNat < limit .binary64 := by
  change _ < (2 ^ 11 - 1) * 2 ^ 52
  rcases Nat.eq_zero_or_pos g.toNat with hzero | hpos
  · obtain rfl : g = 0 := UInt32.toNat_inj.1 hzero
    rw [toNat_widen_zero]
    omega
  rcases Nat.lt_or_ge g.toNat 0x00800000 with hsub | hnormal
  · have hlog := log2_of_subnormal hpos hsub
    have hfraction := fraction_lt hpos hsub
    rw [toNat_widen_subnormal hpos hsub]
    omega
  · rw [toNat_widen_normal hnormal h]
    omega

theorem widenMagnitude_pos {g : UInt32} (hpos : 0 < g.toNat) (h : g.toNat < 0x7f800000) :
    0 < (widenMagnitude g).toNat := by
  have hmultiple : 0 < units .binary32 g.toNat * 2 ^ 925 :=
    Nat.mul_pos (Rounding.units_pos hpos) (pow_pos Nat.two_pos 925)
  rw [← units_widenMagnitude h] at hmultiple
  refine Nat.pos_of_ne_zero fun hzero => ?_
  rw [hzero, Rounding.units_zero] at hmultiple
  exact Nat.lt_irrefl 0 hmultiple

theorem minExponent_widen :
    Format.minExponent .binary64 = Format.minExponent .binary32 - (925 : Nat) := by
  decide

/-- A widened number has the place it came from. -/
theorem narrow_widenMagnitude {g : UInt32} (h : g.toNat < 0x7f800000) :
    narrowMagnitude (widenMagnitude g) = g := by
  apply UInt32.toNat_inj.1
  rcases Nat.eq_zero_or_pos g.toNat with hzero | hpos
  · obtain rfl : g = 0 := UInt32.toNat_inj.1 hzero
    rfl
  have hlimit : limit .binary32 = 0x7f800000 := by decide
  rw [toNat_narrowMagnitude (widenMagnitude_lt h), units_widenMagnitude h, minExponent_widen,
    Rounding.place_mul_pow (Rounding.units_pos hpos), Rounding.place_units hpos, hlimit]
  exact Nat.min_eq_left (Nat.le_of_lt h)

/-! ## Both with the sign -/

theorem widened_lt {x : Single} (h : x.isFinite) :
    (widenMagnitude x.magnitude).toNat < (2 ^ 11 - 1) * 2 ^ 52 :=
  widenMagnitude_lt ((isFinite_iff x).1 h)

theorem toBits_toDouble {x : Single} (h : x.isFinite) :
    (toDouble x).toBits.toNat =
      x.isNegative.toNat * 2 ^ 63 + (widenMagnitude x.magnitude).toNat := by
  have hlt := widened_lt h
  have hneg : x.isNegative.toNat ≤ 1 := Bool.toNat_le _
  have hsign : ((x.bits &&& 0x80000000).toUInt64 <<< 32).toNat = x.isNegative.toNat <<< 63 := by
    rw [UInt64.toNat_shiftLeft, UInt32.toNat_toUInt64, toNat_signBit, ← isNegative_eq]
    simp only [Nat.shiftLeft_eq, UInt64.reduceToNat, Nat.reduceMod]
    omega
  have hbits : (((x.bits &&& 0x80000000).toUInt64 <<< 32) ||| widenMagnitude x.magnitude).toNat =
      x.isNegative.toNat * 2 ^ 63 + (widenMagnitude x.magnitude).toNat := by
    rw [UInt64.toNat_or, hsign, ← Nat.shiftLeft_add_eq_or_of_lt (by omega), Nat.shiftLeft_eq]
  -- The widened number is no NaN, so its bits are kept as they are.
  let raw : BitVec Format.binary64.numBits :=
    (((x.bits &&& 0x80000000).toUInt64 <<< 32) ||| widenMagnitude x.magnitude).toBitVec
  have hfinite : Rounding.magnitude raw < limit .binary64 := by
    change (((x.bits &&& 0x80000000).toUInt64 <<< 32) |||
      widenMagnitude x.magnitude).toNat % 2 ^ 63 < (2 ^ 11 - 1) * 2 ^ 52
    omega
  rw [← hbits]
  exact congrArg BitVec.toNat (Rounding.pack_unpack_of_finite (by decide) hfinite)

theorem magnitude_toDouble {x : Single} (h : x.isFinite) :
    Rounding.magnitude (rawDouble x.toDouble) = (widenMagnitude x.magnitude).toNat := by
  have hlt := widened_lt h
  change x.toDouble.toBits.toNat % 2 ^ 63 = _
  rw [toBits_toDouble h]
  omega

theorem sign_toDouble {x : Single} (h : x.isFinite) :
    Rounding.sign (rawDouble x.toDouble) = Rounding.sign x.raw := by
  have hlt := widened_lt h
  have htop : (unpackSign (rawDouble x.toDouble)).toNat = x.toDouble.toBits.toNat / 2 ^ 63 :=
    Rounding.toNat_unpackSign (rawDouble x.toDouble)
  have hone : (unpackSign (rawDouble x.toDouble)).toNat = x.isNegative.toNat := by
    rw [htop, toBits_toDouble h]
    omega
  have hzero : unpackSign (rawDouble x.toDouble) = 0#_ ↔ x.isNegative = false := by
    rw [← BitVec.toNat_inj, hone, BitVec.toNat_zero, Bool.toNat_eq_zero]
  rw [sign_raw, Rounding.sign, Sign.ofBitVec]
  simp only [hzero]
  cases x.isNegative <;> rfl

/-- Narrowing undoes widening. -/
theorem ofDouble_toDouble {x : Single} (h : x.isFinite) : ofDouble x.toDouble = x := by
  have hmagnitude : x.toDouble.toBits &&& 0x7fffffffffffffff = widenMagnitude x.magnitude :=
    UInt64.toNat_inj.1 ((toNat_mask _).trans (magnitude_toDouble h))
  apply raw_inj
  apply Rounding.eq_of_magnitude
  · rw [sign_raw_ofDouble, sign_toDouble h]
  · rw [magnitude_raw_ofDouble, hmagnitude, narrow_widenMagnitude ((isFinite_iff x).1 h), magnitude_raw]

/-! ## Whole numbers in double precision -/

theorem signedUnits_toDouble {x : Single} (h : x.isFinite) :
    Rounding.signedUnits (rawDouble x.toDouble) = Rounding.signedUnits x.raw * (2 ^ 925 : Nat) := by
  rw [Rounding.signedUnits, magnitude_toDouble h, sign_toDouble h,
    units_widenMagnitude ((isFinite_iff x).1 h), Int.natCast_mul, ← Rounding.Sign.apply_mul,
    Rounding.signedUnits, magnitude_raw]

theorem depth_double : Rounding.depth .binary64 = Rounding.depth .binary32 + 925 := by decide

theorem isWhole_toDouble {x : Single} {z : Int} (h : x.IsWhole z) :
    Rounding.IsWhole (rawDouble x.toDouble) z := by
  have hfinite := isFinite_of_isWhole h
  refine ⟨?_, ?_⟩
  · rw [magnitude_toDouble hfinite]
    exact widened_lt hfinite
  · rw [signedUnits_toDouble hfinite, (isWhole_iff.1 h).units_eq, Int.mul_assoc, ← Int.natCast_mul,
      ← Nat.pow_add, depth_double]

theorem rawDouble_inj {v w : Float} (h : rawDouble v = rawDouble w) : v = w :=
  Float.toBits_inj.1 (UInt64.toBitVec_inj.1 h)

theorem rawDouble_add (v w : Float) : rawDouble (v + w) =
    UnpackedFloat.pack .binary64 (UnpackedFloat.add .binary64
      (UnpackedFloat.unpack .binary64 (rawDouble v))
      (UnpackedFloat.unpack .binary64 (rawDouble w))) := rfl

theorem rawDouble_mul (v w : Float) : rawDouble (v * w) =
    UnpackedFloat.pack .binary64 (UnpackedFloat.mul .binary64
      (UnpackedFloat.unpack .binary64 (rawDouble v))
      (UnpackedFloat.unpack .binary64 (rawDouble w))) := rfl

theorem rawDouble_zero : rawDouble 0 = Rounding.encode .binary64 0 := by
  decide

/-- A running sum in double precision is exact up to `2 ^ 53`. -/
theorem rawDouble_add_mul {sum : Float} {x y : Single} {z w total : Int}
    (hsum : rawDouble sum = Rounding.encode .binary64 total) (hx : x.IsWhole z) (hy : y.IsWhole w)
    (htotal : total.natAbs ≤ 2 ^ 53) (hproduct : (z * w).natAbs ≤ 2 ^ 53) :
    rawDouble (sum + x.toDouble * y.toDouble) = Rounding.encode .binary64 (total + z * w) := by
  have hroom : Format.mantissaBitsWithoutImplicit .binary64 < Format.exponentBias .binary64 := by
    decide
  have hmul := (isWhole_toDouble hx).mul hroom (isWhole_toDouble hy) hproduct
  rw [rawDouble_add, hsum, rawDouble_mul]
  exact Rounding.IsWhole.encode_add hroom htotal hmul

/-- A whole number of at most 24 bits is narrowed to itself. -/
theorem ofDouble_of_encode {v : Float} {z : Int} (h : z.natAbs ≤ 2 ^ 24)
    (hv : rawDouble v = Rounding.encode .binary64 z) : ofDouble v = ofInt z := by
  have hwhole := isWhole_ofInt h
  suffices hwide : rawDouble v = rawDouble (ofInt z).toDouble by
    rw [rawDouble_inj hwide, ofDouble_toDouble (isFinite_of_isWhole hwhole)]
  rw [hv]
  by_cases hz : z = 0
  · rw [hz]
    decide
  · have hencode : Rounding.IsWhole (Rounding.encode .binary64 z) z :=
      Rounding.isWhole_encode (by decide) (Nat.le_trans h (by decide))
    exact hencode.unique (isWhole_toDouble hwhole) hz

end DenseMatmul.Single
