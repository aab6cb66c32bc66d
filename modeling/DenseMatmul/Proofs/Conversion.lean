import DenseMatmul.Proofs.Widening
/-!
# Conversion between the formats

To convert a number is to round it to the other format. Infinities and zeros keep their sign, and what
is not a number stays so. Widening and narrowing shift bits about, and this module shows that both are
that one conversion: widening loses nothing (`unpack_toDouble`), and narrowing rounds once, to nearest
with ties to even (`raw_ofDouble`).
-/

namespace DenseMatmul

open Float.Model Float.Model.UnpackedFloat

namespace Rounding

/-- The number in another format. -/
def convert (spec : Format) : UnpackedFloat → UnpackedFloat
  | .finite s m e _ => UnpackedFloat.round spec s m e
  | .zero s => .zero s
  | .infinity s => .infinity s
  | .notANumber => .notANumber

end Rounding

namespace Single

open Rounding (convert limit)

/-! ## Widening -/

theorem eq_of_infinite {x : Single} (h : Rounding.magnitude x.raw = limit .binary32) :
    x = .infinity ∨ x = ⟨0xff800000⟩ := by
  have hraw : x.raw = UnpackedFloat.pack .binary32 (.infinity (Rounding.sign x.raw)) :=
    Rounding.eq_of_magnitude (Rounding.sign_pack_infinity _).symm
      (h.trans (Rounding.magnitude_pack_infinity _).symm)
  cases hsign : Rounding.sign x.raw with
  | positive => exact .inl (raw_inj (hraw.trans (by rw [hsign]; decide)))
  | negative => exact .inr (raw_inj (hraw.trans (by rw [hsign]; decide)))

theorem unpack_toDouble_of_nan {x : Single} (h : x.isNaN) :
    UnpackedFloat.unpack .binary64 (rawDouble x.toDouble) = .notANumber := by
  have hmagnitude : widenMagnitude x.magnitude = 0x7ff8000000000000 :=
    if_pos (of_decide_eq_true h)
  have hsign : x.bits &&& 0x80000000 = 0 ∨ x.bits &&& 0x80000000 = 0x80000000 := by
    simp only [← UInt32.toNat_inj, toNat_signBit]
    cases decide (2 ^ 31 ≤ x.bits.toNat) <;> simp
  rw [toDouble, hmagnitude]
  rcases hsign with hsign | hsign <;> rw [hsign] <;> rfl

theorem unpack_toDouble_of_finite {x : Single} (h : x.isFinite) :
    UnpackedFloat.unpack .binary64 (rawDouble x.toDouble) =
      convert .binary64 (UnpackedFloat.unpack .binary32 x.raw) := by
  have hg := (isFinite_iff x).1 h
  have hwide := magnitude_toDouble h
  rcases Nat.eq_zero_or_pos x.magnitude.toNat with hzero | hpos
  · have hzero' : x.magnitude = 0 := UInt32.toNat_inj.1 hzero
    rw [hzero', toNat_widen_zero] at hwide
    rw [Rounding.unpack_zero hwide, Rounding.unpack_zero ((magnitude_raw x).trans hzero), convert,
      sign_toDouble h]
  · -- Both sides keep the number as so many of the smallest of their format.
    have hwidePos := widenMagnitude_pos hpos hg
    rw [Rounding.unpack_finite (hwide ▸ hwidePos) (hwide ▸ widenMagnitude_lt hg),
      Rounding.unpack_finite ((magnitude_raw x).symm ▸ hpos) (lt_limit_iff.2 h), convert,
      Rounding.round_significand _ ((magnitude_raw x).symm ▸ hpos), magnitude_raw,
      ← Rounding.round_mul_pow _ (Rounding.units_pos hpos) 925, ← units_widenMagnitude hg,
      ← minExponent_widen, Rounding.round_units _ hwidePos]
    simp only [hwide, sign_toDouble h]

/-- Widening is conversion. -/
theorem unpack_toDouble (x : Single) : UnpackedFloat.unpack .binary64 (rawDouble x.toDouble) =
    convert .binary64 (UnpackedFloat.unpack .binary32 x.raw) := by
  rcases Nat.lt_trichotomy (Rounding.magnitude x.raw) (limit .binary32) with hlt | heq | hgt
  · exact unpack_toDouble_of_finite (lt_limit_iff.1 hlt)
  · rcases eq_of_infinite heq with rfl | rfl <;> rfl
  · rw [Rounding.unpack_nan hgt, convert, unpack_toDouble_of_nan (limit_lt_iff.1 hgt)]

/-! ## Narrowing -/

/-- There is one NaN in double precision. -/
theorem toBits_of_nan {v : Float} (h : limit .binary64 < Rounding.magnitude (rawDouble v)) :
    v.toBits = 0x7ff8000000000000 := by
  have hpacked : rawDouble v = packedNaN .binary64 := by
    have hpack := pack_unpack (rawDouble v)
    rw [Rounding.unpack_nan h] at hpack
    split at hpack
    case isTrue hnan =>
      rw [isNaNBits, decide_eq_true_eq] at hnan
      exact v.toModel.valid.eq_packedNaN hnan.1 hnan.2
    case isFalse => exact hpack.symm
  exact UInt64.toBitVec_inj.1 (hpacked.trans (by decide))

/-- Narrowing is conversion: one rounding to nearest, with ties to even. -/
theorem raw_ofDouble (v : Float) : (ofDouble v).raw =
    UnpackedFloat.pack .binary32 (convert .binary32 (UnpackedFloat.unpack .binary64 (rawDouble v))) := by
  rcases Nat.lt_trichotomy (Rounding.magnitude (rawDouble v)) (limit .binary64) with hlt | heq | hgt
  · have hmagnitude := magnitude_raw_ofDouble v
    rw [toNat_narrowMagnitude (by rwa [toNat_mask]), toNat_mask] at hmagnitude
    rcases Nat.eq_zero_or_pos (Rounding.magnitude (rawDouble v)) with hzero | hpos
    · have hbits : v.toBits &&& 0x7fffffffffffffff = 0 :=
        UInt64.toNat_inj.1 ((toNat_mask v).trans hzero)
      rw [Rounding.unpack_zero hzero, convert]
      apply Rounding.eq_of_magnitude
      · rw [Rounding.sign_pack_zero, sign_raw_ofDouble]
      · rw [Rounding.magnitude_pack_zero, magnitude_raw_ofDouble, hbits]
        decide
    · rw [Rounding.unpack_finite hpos hlt, convert]
      apply Rounding.eq_of_magnitude
      · rw [Rounding.sign_pack_round _ (Rounding.significand_pos hpos), sign_raw_ofDouble]
      · rw [Rounding.magnitude_pack_round _ (Rounding.significand_pos hpos) _ (by decide), hmagnitude,
          Rounding.place_significand hpos]
  · rw [Rounding.unpack_infinity heq, convert]
    apply Rounding.eq_of_magnitude
    · rw [Rounding.sign_pack_infinity, sign_raw_ofDouble]
    · have hbits : v.toBits &&& 0x7fffffffffffffff = 0x7ff0000000000000 :=
        UInt64.toNat_inj.1 ((toNat_mask v).trans (heq.trans (by decide)))
      rw [Rounding.magnitude_pack_infinity, magnitude_raw_ofDouble, hbits]
      decide
  · rw [Rounding.unpack_nan hgt, convert]
    simp only [ofDouble, toBits_of_nan hgt]
    decide

end Single

end DenseMatmul
