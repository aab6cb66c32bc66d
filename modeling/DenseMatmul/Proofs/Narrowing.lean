import DenseMatmul.Proofs.WholeNumbers
/-!
# Narrowing

A double-precision number is narrowed by two shifts that round, one for the normal numbers of single
precision and one for those below. Both find the place that the number has among those of single
precision (`toNat_narrowMagnitude`). The sign is kept.
-/

namespace DenseMatmul

open Float.Model Float.Model.UnpackedFloat

namespace Rounding

/-! ## Places in single precision -/

open Single (roundShift)

/-- Less than half of a unit is rounded to nothing. -/
theorem roundShift_of_lt {n shift : Nat} (h : 2 * n < 2 ^ shift) : roundShift n shift = 0 := by
  have hlt : n < 2 ^ shift := by omega
  rw [roundShift_eq, Nat.div_eq_of_lt hlt, Nat.mod_eq_of_lt hlt, if_neg (by omega)]

theorem minExponent_single : Format.minExponent .binary32 = -149 := rfl

theorem minExponent_double : Format.minExponent .binary64 = -1074 := by decide

/-- Single precision keeps 24 bits, and none below the smallest number. -/
theorem unitExponent_single (m : Nat) (e : Int) :
    unitExponent .binary32 m e = max (m.log2 + e - 23) (-149) := by
  have hbits : Format.mantissaBits .binary32 = 24 := rfl
  simp only [unitExponent, Format.targetExponent, totalExponent, minExponent_single, hbits]
  omega

/-- A subnormal number of double precision is rounded to zero. -/
theorem place_narrow_subnormal {g : Nat} (h : g < 2 ^ 52) :
    place .binary32 g (Format.minExponent .binary64) = 0 := by
  have hlog : g.log2 < 52 := by
    rcases Nat.eq_zero_or_pos g with rfl | hpos
    · decide
    · exact (Nat.log2_lt (Nat.ne_of_gt hpos)).2 h
  have hunit : unitExponent .binary32 g (-1074) = -149 := by
    rw [unitExponent_single]
    omega
  have hless : 2 * g < 2 ^ 53 := by omega
  have hnone : ∀ shift, 53 ≤ shift → roundShift g shift = 0 := fun _ hshift =>
    roundShift_of_lt (hless.trans_le (Nat.pow_le_pow_right Nat.two_pos hshift))
  rw [place, minExponent_double, hunit, nearest, rank, minExponent_single]
  simpa using hnone 925 (by omega)

/-- The exponent field `q + 1` of a normal number of double precision settles how much is left of its
significand. -/
theorem place_narrow_normal {q f : Nat} (hf : f < 2 ^ 52) :
    place .binary32 (2 ^ 52 + f) (Format.minExponent .binary64 + q) =
      if q < 896 then roundShift (2 ^ 52 + f) (925 - q)
      else (q - 896) * 2 ^ 23 + roundShift (2 ^ 52 + f) 29 := by
  have hlog : (2 ^ 52 + f).log2 = 52 := (Nat.log2_eq_iff (by omega)).2 ⟨by omega, by omega⟩
  have hunit : unitExponent .binary32 (2 ^ 52 + f) (-1074 + q) = max ((q : Int) - 1045) (-149) := by
    rw [unitExponent_single, hlog]
    omega
  rw [place, minExponent_double, hunit, nearest, rank, minExponent_single]
  split
  case isTrue hlow =>
    have hmax : max ((q : Int) - 1045) (-149) = -149 := by omega
    have hup : (-1074 + (q : Int) - -149).toNat = 0 := by omega
    have hdown : (-(-1074 + (q : Int) - -149)).toNat = 925 - q := by omega
    rw [hmax, hup, hdown]
    simp
  case isFalse hhigh =>
    have hmax : max ((q : Int) - 1045) (-149) = q - 1045 := by omega
    have hup : (-1074 + (q : Int) - (q - 1045)).toNat = 0 := by omega
    have hdown : (-(-1074 + (q : Int) - (q - 1045))).toNat = 29 := by omega
    have hscale : ((q : Int) - 1045 - -149).toNat = q - 896 := by omega
    rw [hmax, hup, hdown, hscale, Nat.pow_zero, Nat.mul_one]

end Rounding

namespace Single

open Rounding (units units_of_lt significand scale limit)

/-! ## The bits of a narrowed number -/

/-- A finite number is narrowed by its exponent field and its fraction. -/
theorem narrowMagnitude_fields {bits : UInt64} (h : bits.toNat < limit .binary64) :
    (narrowMagnitude bits).toNat =
      min (if bits.toNat / 2 ^ 52 = 0 then 0
        else if bits.toNat / 2 ^ 52 < 897 then
          roundShift (2 ^ 52 + bits.toNat % 2 ^ 52) (926 - bits.toNat / 2 ^ 52)
        else
          (bits.toNat / 2 ^ 52 - 897) * 2 ^ 23 + roundShift (2 ^ 52 + bits.toNat % 2 ^ 52) 29)
        (limit .binary32) := by
  have hlimit : limit .binary64 = 0x7ff0000000000000 := by decide
  have hlimit' : limit .binary32 = 0x7f800000 := by decide
  have hnan : ¬ 0x7ff0000000000000 < bits := by
    simp [UInt64.lt_iff_toNat_lt]
    omega
  have hexponent : (bits >>> 52).toNat = bits.toNat / 2 ^ 52 := by
    rw [UInt64.toNat_shiftRight, Nat.shiftRight_eq_div_pow]
    rfl
  have hfraction : (bits &&& 0x000fffffffffffff).toNat = bits.toNat % 2 ^ 52 := by
    rw [UInt64.toNat_and, ← Nat.and_two_pow_sub_one_eq_mod]
    rfl
  have hword : ∀ n, (UInt32.ofNat (min n 0x7f800000)).toNat = min n 0x7f800000 := fun n => by
    rw [UInt32.toNat_ofNat', Nat.mod_eq_of_lt (by omega)]
  simp only [narrowMagnitude, if_neg hnan, hexponent, hfraction, hword, hlimit', beq_iff_eq,
    Nat.shiftLeft_eq]
  rfl

/-- That is the place of the number, or the one of infinity if the number is past it. -/
theorem toNat_narrowMagnitude {bits : UInt64} (h : bits.toNat < limit .binary64) :
    (narrowMagnitude bits).toNat =
      min (Rounding.place .binary32 (units .binary64 bits.toNat) (Format.minExponent .binary64))
        (limit .binary32) := by
  rw [narrowMagnitude_fields h]
  congr 1
  rcases Nat.lt_or_ge bits.toNat (2 ^ 52) with hsub | hnormal
  · have hfield : bits.toNat / 2 ^ 52 = 0 := Nat.div_eq_of_lt hsub
    have hunits : units .binary64 bits.toNat = bits.toNat := units_of_lt hsub
    rw [if_pos hfield, hunits, Rounding.place_narrow_subnormal hsub]
  · obtain ⟨q, hq⟩ : ∃ q, bits.toNat / 2 ^ 52 = q + 1 := ⟨bits.toNat / 2 ^ 52 - 1, by omega⟩
    have hplace := Rounding.place_narrow_normal (q := q) (Nat.mod_lt bits.toNat (Nat.two_pow_pos 52))
    have hbits : significand .binary64 bits.toNat = 2 ^ 52 + bits.toNat % 2 ^ 52 :=
      if_neg (Nat.not_lt.2 hnormal)
    have hscale : scale .binary64 bits.toNat = q := by
      change bits.toNat / 2 ^ 52 - 1 = q
      omega
    have hshift : 926 - (q + 1) = 925 - q := by omega
    have hfield : q + 1 - 897 = q - 896 := by omega
    have hsplit : q + 1 < 897 ↔ q < 896 := by omega
    rw [← Rounding.place_significand (by omega), hbits, hscale, hplace, hq, if_neg (Nat.succ_ne_zero q),
      hshift, hfield]
    simp only [hsplit]

theorem narrowMagnitude_lt (bits : UInt64) : (narrowMagnitude bits).toNat < 2 ^ 31 := by
  unfold narrowMagnitude
  split
  · decide
  · dsimp only
    rw [UInt32.toNat_ofNat']
    omega

/-- The sign bit moves down, and the bits below it are narrowed for themselves. -/
theorem toNat_ofDouble (v : Float) : (ofDouble v).bits.toNat =
    v.toBits.toNat / 2 ^ 63 * 2 ^ 31 +
      (narrowMagnitude (v.toBits &&& 0x7fffffffffffffff)).toNat := by
  have hlow := narrowMagnitude_lt (v.toBits &&& 0x7fffffffffffffff)
  have hword := v.toBits.toNat_lt
  have hsign : ((v.toBits >>> 63).toUInt32 <<< 31).toNat = (v.toBits.toNat / 2 ^ 63) <<< 31 := by
    rw [UInt32.toNat_shiftLeft, UInt64.toNat_toUInt32, UInt64.toNat_shiftRight]
    simp only [Nat.shiftLeft_eq, Nat.shiftRight_eq_div_pow, UInt64.reduceToNat, UInt32.reduceToNat,
      Nat.reduceMod]
    omega
  simp only [ofDouble]
  rw [UInt32.toNat_or, hsign, ← Nat.shiftLeft_add_eq_or_of_lt hlow, Nat.shiftLeft_eq]

/-- The bits as arithmetic sees them. -/
def rawDouble (v : Float) : BitVec Format.binary64.numBits := v.toBits.toBitVec

theorem toNat_mask (v : Float) :
    (v.toBits &&& 0x7fffffffffffffff).toNat = Rounding.magnitude (rawDouble v) := by
  rw [UInt64.toNat_and]
  exact Nat.and_two_pow_sub_one_eq_mod _ 63

theorem magnitude_raw_ofDouble (v : Float) : Rounding.magnitude (ofDouble v).raw =
    (narrowMagnitude (v.toBits &&& 0x7fffffffffffffff)).toNat := by
  have hlow := narrowMagnitude_lt (v.toBits &&& 0x7fffffffffffffff)
  change (ofDouble v).bits.toNat % 2 ^ 31 = _
  rw [toNat_ofDouble]
  omega

theorem sign_raw_ofDouble (v : Float) :
    Rounding.sign (ofDouble v).raw = Rounding.sign (rawDouble v) := by
  have hlow := narrowMagnitude_lt (v.toBits &&& 0x7fffffffffffffff)
  have htop : (unpackSign (ofDouble v).raw).toNat = (ofDouble v).bits.toNat / 2 ^ 31 :=
    Rounding.toNat_unpackSign (ofDouble v).raw
  have htop' : (unpackSign (rawDouble v)).toNat = v.toBits.toNat / 2 ^ 63 :=
    Rounding.toNat_unpackSign (rawDouble v)
  rw [Rounding.sign, Rounding.sign]
  congr 1
  apply BitVec.eq_of_toNat_eq
  rw [htop, htop', toNat_ofDouble]
  omega

end Single

end DenseMatmul
