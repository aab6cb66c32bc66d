import DenseMatmul.Proofs.Arithmetic
/-!
# Whole numbers in single precision

A number is a whole one if it is finite and has the value of an integer, whatever its encoding: both
zeros are the whole number zero. Up to `2 ^ 24` sums and products of whole numbers are exact.
-/

namespace DenseMatmul.Single

open Float.Model Float.Model.UnpackedFloat

/-! ## Bits -/

/-- The bits as arithmetic sees them. -/
def raw (x : Single) : BitVec Format.binary32.numBits := x.bits.toBitVec

theorem raw_inj {x y : Single} (h : x.raw = y.raw) : x = y := by
  cases x
  cases y
  exact congrArg Single.mk (UInt32.toBitVec_inj.1 h)

theorem magnitude_raw (x : Single) : Rounding.magnitude x.raw = x.magnitude.toNat := by
  have hmask : x.magnitude.toNat = x.bits.toNat &&& (2 ^ 31 - 1) := rfl
  rw [hmask, Nat.and_two_pow_sub_one_eq_mod]
  rfl

theorem isFinite_iff (x : Single) : x.isFinite ↔ x.magnitude.toNat < 0x7f800000 := by
  rw [isFinite, decide_eq_true_eq, UInt32.lt_iff_toNat_lt]
  rfl

theorem isNaN_iff (x : Single) : x.isNaN ↔ 0x7f800000 < x.magnitude.toNat := by
  rw [isNaN, decide_eq_true_eq, UInt32.lt_iff_toNat_lt]
  rfl

theorem lt_limit_iff {x : Single} :
    Rounding.magnitude x.raw < Rounding.limit .binary32 ↔ x.isFinite := by
  rw [magnitude_raw, isFinite_iff]
  exact Iff.rfl

theorem limit_lt_iff {x : Single} :
    Rounding.limit .binary32 < Rounding.magnitude x.raw ↔ x.isNaN := by
  rw [magnitude_raw, isNaN_iff]
  exact Iff.rfl

theorem testBit_sign (x : Single) :
    x.bits.toNat.testBit 31 = decide (2 ^ 31 ≤ x.bits.toNat) := by
  have hlt := x.bits.toNat_lt
  rw [Nat.testBit_eq_decide_div_mod_eq]
  congr 1
  simp only [eq_iff_iff]
  omega

theorem toNat_signBit (x : Single) :
    (x.bits &&& 0x80000000).toNat = (decide (2 ^ 31 ≤ x.bits.toNat)).toNat * 2 ^ 31 := by
  rw [← testBit_sign, ← Nat.and_two_pow]
  rfl

theorem isNegative_eq (x : Single) : x.isNegative = decide (2 ^ 31 ≤ x.bits.toNat) := by
  rw [Bool.eq_iff_iff, isNegative, bne_iff_ne, ne_eq, ← UInt32.toNat_inj, toNat_signBit]
  simp

theorem sign_raw (x : Single) :
    Rounding.sign x.raw = if x.isNegative then .negative else .positive := by
  have htop : (unpackSign x.raw).toNat = x.bits.toNat / 2 ^ 31 := Rounding.toNat_unpackSign x.raw
  have hlt := x.bits.toNat_lt
  have hzero : unpackSign x.raw = 0#_ ↔ x.bits.toNat < 2 ^ 31 := by
    rw [← BitVec.toNat_inj, htop, BitVec.toNat_zero]
    omega
  rw [Rounding.sign, Sign.ofBitVec, isNegative_eq]
  rcases Nat.lt_or_ge x.bits.toNat (2 ^ 31) with h | h
  · rw [if_pos (hzero.2 h), decide_eq_false (Nat.not_le.2 h)]
    rfl
  · rw [if_neg (mt hzero.1 (Nat.not_lt.2 h)), decide_eq_true h]
    rfl

theorem unpack_value (x : Single) :
    x.value.toModel.unpack = UnpackedFloat.unpack .binary32 x.raw := by
  have hpack := pack_unpack x.raw
  change UnpackedFloat.unpack _ (UnpackedFloat.pack _ (UnpackedFloat.unpack _ x.raw)) = _
  rw [hpack]
  split
  case isTrue hnan =>
    rw [isNaNBits, decide_eq_true_eq] at hnan
    rw [unpack_packedNaN]
    simp [UnpackedFloat.unpack, hnan]
  case isFalse => rfl

theorem raw_add (x y : Single) : (x + y).raw =
    UnpackedFloat.pack .binary32 (UnpackedFloat.add .binary32
      (UnpackedFloat.unpack .binary32 x.raw) (UnpackedFloat.unpack .binary32 y.raw)) := by
  rw [← unpack_value, ← unpack_value]
  rfl

theorem raw_mul (x y : Single) : (x * y).raw =
    UnpackedFloat.pack .binary32 (UnpackedFloat.mul .binary32
      (UnpackedFloat.unpack .binary32 x.raw) (UnpackedFloat.unpack .binary32 y.raw)) := by
  rw [← unpack_value, ← unpack_value]
  rfl

/-! ## Whole numbers -/

/-- An unpacked number has the value of the whole number `z`. -/
def Represents : UnpackedFloat → Int → Prop
  | .zero _, z => z = 0
  | .finite s m e _, z => s.apply m * (2 ^ e.toNat : Nat) = z * (2 ^ (-e).toNat : Nat)
  | .infinity _, _ => False
  | .notANumber, _ => False

instance (v : UnpackedFloat) (z : Int) : Decidable (Represents v z) :=
  match v with
  | .zero _ => inferInstanceAs (Decidable (z = 0))
  | .finite s m e _ =>
    inferInstanceAs (Decidable (s.apply m * (2 ^ e.toNat : Nat) = z * (2 ^ (-e).toNat : Nat)))
  | .infinity _ => inferInstanceAs (Decidable False)
  | .notANumber => inferInstanceAs (Decidable False)

/-- The number is the whole number `z`. -/
def IsWhole (x : Single) (z : Int) : Prop := Represents x.value.toModel.unpack z

instance (x : Single) (z : Int) : Decidable (x.IsWhole z) :=
  inferInstanceAs (Decidable (Represents _ _))

/-- The number nearest to `z`, which is positive zero for zero. -/
def ofInt (z : Int) : Single := ⟨(Float32.Model.ofInt z).toBits⟩

theorem ofInt_zero : ofInt 0 = .zero := by decide

theorem raw_ofInt (z : Int) : (ofInt z).raw = Rounding.encode .binary32 z := rfl

/-- An equation with a power of two on one side only, cleared of it. -/
theorem cleared_iff (n z : Int) (j k : Nat) :
    n * (2 ^ (j - k : Int).toNat : Nat) = z * (2 ^ (k - j : Int).toNat : Nat) ↔
      n * (2 ^ j : Nat) = z * (2 ^ k : Nat) := by
  have hc : ((2 ^ min j k : Nat) : Int) ≠ 0 :=
    Int.natCast_ne_zero.2 (Nat.ne_of_gt (Nat.two_pow_pos _))
  have hj : (j - k : Int).toNat + min j k = j := by omega
  have hk : (k - j : Int).toNat + min j k = k := by omega
  conv_lhs => rw [← Int.mul_eq_mul_right_iff hc, Int.mul_assoc, Int.mul_assoc, ← Int.natCast_mul,
    ← Int.natCast_mul, ← Nat.pow_add, ← Nat.pow_add, hj, hk]

theorem represents_unpack_iff {spec : Format} {b : BitVec spec.numBits} {z : Int} :
    Represents (UnpackedFloat.unpack spec b) z ↔ Rounding.IsWhole b z := by
  rcases Nat.eq_zero_or_pos (Rounding.magnitude b) with hzero | hpos
  · rw [Rounding.unpack_zero hzero]
    constructor
    · rintro rfl
      exact Rounding.isWhole_zero hzero
    · intro h
      by_contra hz
      have := Rounding.magnitude_pos_of_signedUnits (h.signedUnits_ne_zero hz)
      omega
  rcases Nat.lt_trichotomy (Rounding.magnitude b) (Rounding.limit spec) with hlt | heq | hgt
  · have hexponent : spec.minExponent + Rounding.scale spec (Rounding.magnitude b) =
        (Rounding.scale spec (Rounding.magnitude b) : Int) - Rounding.depth spec := by
      rw [Rounding.minExponent_eq_neg_depth]
      omega
    have hunits : Represents (UnpackedFloat.unpack spec b) z ↔
        Rounding.signedUnits b = z * (2 ^ Rounding.depth spec : Nat) := by
      rw [Rounding.unpack_finite hpos hlt, Represents, hexponent, Int.neg_sub, cleared_iff,
        Rounding.signedUnits, Rounding.units, Int.natCast_mul, Rounding.Sign.apply_mul]
    exact ⟨fun h => ⟨hlt, hunits.1 h⟩, fun h => hunits.2 h.units_eq⟩
  · rw [Rounding.unpack_infinity heq]
    exact ⟨False.elim, fun h => absurd h.finite (by omega)⟩
  · rw [Rounding.unpack_nan hgt]
    exact ⟨False.elim, fun h => absurd h.finite (by omega)⟩

theorem isWhole_iff {x : Single} {z : Int} : x.IsWhole z ↔ Rounding.IsWhole x.raw z := by
  rw [IsWhole, unpack_value, represents_unpack_iff]

theorem isFinite_of_isWhole {x : Single} {z : Int} (h : x.IsWhole z) : x.isFinite := by
  have hfinite := (isWhole_iff.1 h).finite
  rw [magnitude_raw] at hfinite
  exact (isFinite_iff x).2 hfinite

variable {x y : Single} {z w : Int}

theorem isWhole_ofInt (h : z.natAbs ≤ 2 ^ 24) : (ofInt z).IsWhole z :=
  isWhole_iff.2 (Rounding.isWhole_encode (by decide) h)

theorem isWhole_mul (hx : x.IsWhole z) (hy : y.IsWhole w) (h : (z * w).natAbs ≤ 2 ^ 24) :
    (x * y).IsWhole (z * w) := by
  rw [isWhole_iff, raw_mul]
  exact (isWhole_iff.1 hx).mul (by decide) (isWhole_iff.1 hy) h

/-- A zero sum is positive here, also if it adds a negative zero. -/
theorem ofInt_add (h : z.natAbs ≤ 2 ^ 24) (hy : y.IsWhole w) : ofInt z + y = ofInt (z + w) := by
  apply raw_inj
  rw [raw_add, raw_ofInt, raw_ofInt]
  exact Rounding.IsWhole.encode_add (by decide) h (isWhole_iff.1 hy)

end DenseMatmul.Single
