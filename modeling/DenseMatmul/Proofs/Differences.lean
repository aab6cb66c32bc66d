import DenseMatmul.Proofs.Order
/-!
# Differences of single-precision numbers

Two numbers taken from each other either way round differ by the same absolute value, bit for bit and
whatever they are: of the exact difference only the sign changes, and rounding looks at no sign
(`magnitude_pack_sub_comm`). A finite number less itself is positive zero; an infinity or a NaN less
itself is no number.
-/

namespace DenseMatmul

open Float.Model Float.Model.UnpackedFloat

namespace Rounding

variable {spec : Format}

/-- The opposite number has the same magnitude. -/
theorem magnitude_pack_neg (v : UnpackedFloat) :
    magnitude (UnpackedFloat.pack spec v.neg) = magnitude (UnpackedFloat.pack spec v) := by
  cases v with
  | notANumber => rfl
  | infinity s => simp only [UnpackedFloat.neg, magnitude_pack_infinity]
  | zero s => simp only [UnpackedFloat.neg, magnitude_pack_zero]
  | finite s m e hm =>
    simp only [UnpackedFloat.neg, UnpackedFloat.pack]
    split
    · rw [magnitude_packedInfinity, magnitude_packedInfinity]
    · split <;> rw [magnitude_packComponents, magnitude_packComponents]

/-- Rounding looks at no sign. -/
theorem magnitude_pack_normalize_neg (heb : 2 ≤ spec.exponentBits) (z e : Int) (zeroSign : Sign) :
    magnitude (UnpackedFloat.pack spec (UnpackedFloat.normalize spec (-z) e zeroSign)) =
      magnitude (UnpackedFloat.pack spec (UnpackedFloat.normalize spec z e zeroSign)) := by
  by_cases hz : z = 0
  · rw [hz, Int.neg_zero]
  · obtain ⟨s, m, hm, rfl⟩ := exists_apply hz
    have hneg : -s.apply (m : Int) = (-s).apply m := by
      cases s
      · exact Int.neg_neg _
      · rfl
    rw [hneg, normalize_apply _ _ hm, normalize_apply _ _ hm, magnitude_pack_round _ hm _ heb,
      magnitude_pack_round _ hm _ heb]

/-- The difference the other way round has the same magnitude. -/
theorem magnitude_pack_sub_comm (heb : 2 ≤ spec.exponentBits) (v w : UnpackedFloat) :
    magnitude (UnpackedFloat.pack spec (UnpackedFloat.sub spec v w)) =
      magnitude (UnpackedFloat.pack spec (UnpackedFloat.sub spec w v)) := by
  cases v with
  | notANumber => cases w <;> rfl
  | infinity s =>
    cases w with
    | notANumber => rfl
    | infinity s' =>
      -- Infinities of one sign leave no number, those of two signs the first.
      cases s <;> cases s'
      · rfl
      · exact magnitude_pack_neg (.infinity .positive)
      · exact magnitude_pack_neg (.infinity .negative)
      · rfl
    | zero s' => exact (magnitude_pack_neg (.infinity s)).symm
    | finite s' m' e' hm' => exact (magnitude_pack_neg (.infinity s)).symm
  | zero s =>
    cases w with
    | notANumber => rfl
    | infinity s' => exact magnitude_pack_neg (.infinity s')
    | zero s' =>
      cases s <;> cases s'
      · rfl
      · exact magnitude_pack_neg (.zero .positive)
      · exact magnitude_pack_neg (.zero .negative)
      · rfl
    | finite s' m' e' hm' => exact magnitude_pack_neg (.finite s' m' e' hm')
  | finite s m e hm =>
    cases w with
    | notANumber => rfl
    | infinity s' => exact magnitude_pack_neg (.infinity s')
    | zero s' => exact (magnitude_pack_neg (.finite s m e hm)).symm
    | finite s' m' e' hm' =>
      simp only [UnpackedFloat.sub, Int.min_comm e' e]
      rw [← magnitude_pack_normalize_neg heb, Int.neg_sub]

end Rounding

namespace Single

variable {x y : Single}

theorem raw_sub (x y : Single) : (x - y).raw =
    UnpackedFloat.pack .binary32 (UnpackedFloat.sub .binary32
      (UnpackedFloat.unpack .binary32 x.raw) (UnpackedFloat.unpack .binary32 y.raw)) := by
  rw [← unpack_value, ← unpack_value]
  rfl

theorem abs_eq_of_magnitude (h : Rounding.magnitude x.raw = Rounding.magnitude y.raw) :
    x.abs = y.abs := by
  rw [magnitude_raw, magnitude_raw] at h
  exact congrArg Single.mk (UInt32.toNat_inj.1 h)

theorem abs_sub_comm (x y : Single) : (x - y).abs = (y - x).abs := by
  apply abs_eq_of_magnitude
  rw [raw_sub, raw_sub]
  exact Rounding.magnitude_pack_sub_comm (by decide) _ _

/-- A finite number less itself is positive zero. -/
theorem sub_self_of_isFinite (h : x.isFinite) : x - x = .zero := by
  apply raw_inj
  rw [raw_sub]
  rcases Nat.eq_zero_or_pos (Rounding.magnitude x.raw) with hzero | hpos
  · rw [Rounding.unpack_zero hzero]
    cases Rounding.sign x.raw <;> rfl
  · rw [Rounding.unpack_finite hpos (lt_limit_iff.2 h)]
    simp only [UnpackedFloat.sub, Int.sub_self, Rounding.normalize_zero]
    rfl

/-- What is not finite is no number less itself. -/
theorem sub_self_of_not_isFinite (h : ¬ x.isFinite) : x - x = .nan := by
  apply raw_inj
  rw [raw_sub]
  rcases Nat.eq_or_lt_of_le (Nat.not_lt.1 (mt lt_limit_iff.1 h)) with hinf | hnan
  · rw [Rounding.unpack_infinity hinf.symm]
    cases Rounding.sign x.raw <;> rfl
  · rw [Rounding.unpack_nan hnan]
    rfl

end Single

end DenseMatmul
