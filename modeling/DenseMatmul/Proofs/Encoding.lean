import DenseMatmul.Proofs.Rounding
/-!
# Encoding

The bits of a number are a sign and a magnitude. The finite magnitudes number the numbers of one
sign in order, and each stands for a whole multiple of the smallest positive number. This module
reads that multiple off the bits, and shows that packing a rounded number yields the magnitude that
is its place.
-/

namespace DenseMatmul.Rounding

open Float.Model Float.Model.UnpackedFloat

variable {spec : Format}

/-! ## Magnitudes -/

/-- The bits below the sign. -/
def magnitude (b : BitVec spec.numBits) : Nat :=
  b.toNat % 2 ^ (spec.exponentBits + spec.mantissaBitsWithoutImplicit)

def sign (b : BitVec spec.numBits) : Sign := Sign.ofBitVec (unpackSign b)

variable (spec) in
/-- The magnitude of the infinities. -/
def limit : Nat := (2 ^ spec.exponentBits - 1) * 2 ^ spec.mantissaBitsWithoutImplicit

theorem limit_pos : 0 < limit spec := by
  have hone : 1 < 2 ^ spec.exponentBits := Nat.one_lt_two_pow (Nat.ne_of_gt spec.he)
  exact Nat.mul_pos (by omega) (Nat.two_pow_pos _)

theorem toNat_unpackMantissa (b : BitVec spec.numBits) :
    (unpackMantissa b).toNat = magnitude b % 2 ^ spec.mantissaBitsWithoutImplicit := by
  rw [unpackMantissa_def, BitVec.extractLsb'_toNat, Nat.shiftRight_zero, magnitude,
    Nat.mod_mod_of_dvd _ (Nat.pow_dvd_pow 2 (Nat.le_add_left _ _))]

theorem toNat_unpackExponent (b : BitVec spec.numBits) :
    (unpackExponent b).toNat = magnitude b / 2 ^ spec.mantissaBitsWithoutImplicit := by
  rw [unpackExponent_def, BitVec.extractLsb'_toNat, Nat.shiftRight_eq_div_pow, magnitude,
    Nat.add_comm spec.exponentBits, Nat.pow_add, Nat.mod_mul_right_div_self]

theorem toNat_unpackSign (b : BitVec spec.numBits) :
    (unpackSign b).toNat =
      b.toNat / 2 ^ (spec.exponentBits + spec.mantissaBitsWithoutImplicit) := by
  have hb : b.toNat < 2 ^ (spec.exponentBits + spec.mantissaBitsWithoutImplicit) * 2 ^ 1 := by
    rw [← Nat.pow_add]
    exact Nat.lt_of_lt_of_eq b.isLt (congrArg _ (by simp only [Format.numBits]; omega))
  rw [unpackSign_def, BitVec.extractLsb'_toNat, Nat.shiftRight_eq_div_pow, Nat.add_comm,
    Nat.mod_eq_of_lt (Nat.div_lt_of_lt_mul hb)]

theorem toNat_eq (b : BitVec spec.numBits) :
    b.toNat = (sign b).toBitVec.toNat *
      2 ^ (spec.exponentBits + spec.mantissaBitsWithoutImplicit) + magnitude b := by
  rw [sign, Sign.toBitVec_ofBitVec, toNat_unpackSign, magnitude, Nat.div_add_mod']

/-- Bits are settled by the sign and the magnitude. -/
theorem eq_of_magnitude {b b' : BitVec spec.numBits} (hsign : sign b = sign b')
    (h : magnitude b = magnitude b') : b = b' := by
  apply BitVec.eq_of_toNat_eq
  rw [toNat_eq b, toNat_eq b', hsign, h]

@[simp] theorem sign_packComponents (s : Sign) (e : BitVec spec.exponentBits)
    (m : BitVec spec.mantissaBitsWithoutImplicit) : sign (packComponents spec s e m) = s := by
  simp [sign]

@[simp] theorem magnitude_packComponents (s : Sign) (e : BitVec spec.exponentBits)
    (m : BitVec spec.mantissaBitsWithoutImplicit) :
    magnitude (packComponents spec s e m) =
      e.toNat * 2 ^ spec.mantissaBitsWithoutImplicit + m.toNat := by
  have hm := toNat_unpackMantissa (packComponents spec s e m)
  have he := toNat_unpackExponent (packComponents spec s e m)
  rw [unpackMantissa_packComponents] at hm
  rw [unpackExponent_packComponents] at he
  rw [hm, he, Nat.div_add_mod']

/-! ## Numbers in units of the smallest one -/

variable (spec) in
/-- The significand of a finite magnitude, hidden bit included. -/
def significand (g : Nat) : Nat :=
  if g < 2 ^ spec.mantissaBitsWithoutImplicit then g
  else 2 ^ spec.mantissaBitsWithoutImplicit + g % 2 ^ spec.mantissaBitsWithoutImplicit

variable (spec) in
/-- The exponent of a finite magnitude above the smallest one. -/
def scale (g : Nat) : Nat := g / 2 ^ spec.mantissaBitsWithoutImplicit - 1

variable (spec) in
/-- A finite magnitude as a multiple of the smallest positive number. -/
def units (g : Nat) : Nat := significand spec g * 2 ^ scale spec g

theorem units_of_lt {g : Nat} (h : g < 2 ^ spec.mantissaBitsWithoutImplicit) : units spec g = g := by
  rw [units, significand, if_pos h, scale, Nat.div_eq_of_lt h, Nat.zero_sub, Nat.pow_zero,
    Nat.mul_one]

/-- A magnitude with exponent field `q + 1` and fraction `f`. -/
theorem units_fields {q f : Nat} (hf : f < 2 ^ spec.mantissaBitsWithoutImplicit) :
    units spec ((q + 1) * 2 ^ spec.mantissaBitsWithoutImplicit + f) =
      (2 ^ spec.mantissaBitsWithoutImplicit + f) * 2 ^ q := by
  have hpow := Nat.two_pow_pos spec.mantissaBitsWithoutImplicit
  have hdiv : ((q + 1) * 2 ^ spec.mantissaBitsWithoutImplicit + f) /
      2 ^ spec.mantissaBitsWithoutImplicit = q + 1 := by
    rw [Nat.mul_comm, Nat.mul_add_div hpow, Nat.div_eq_of_lt hf, Nat.add_zero]
  have hmod : ((q + 1) * 2 ^ spec.mantissaBitsWithoutImplicit + f) %
      2 ^ spec.mantissaBitsWithoutImplicit = f := by
    rw [Nat.mul_comm, Nat.mul_add_mod, Nat.mod_eq_of_lt hf]
  have hge : ¬ (q + 1) * 2 ^ spec.mantissaBitsWithoutImplicit + f <
      2 ^ spec.mantissaBitsWithoutImplicit := by
    rw [Nat.add_mul]
    omega
  rw [units, significand, if_neg hge, scale, hdiv, hmod, Nat.add_sub_cancel]

theorem significand_pos {g : Nat} (h : 0 < g) : 0 < significand spec g := by
  have := Nat.two_pow_pos spec.mantissaBitsWithoutImplicit
  unfold significand
  split <;> omega

variable (spec) in
theorem minExponent_eq :
    spec.minExponent = 1 - (spec.exponentBias + spec.mantissaBitsWithoutImplicit : Int) := by
  have hpow : 1 ≤ 2 ^ (spec.exponentBits - 1) := Nat.one_le_two_pow
  simp only [Format.minExponent, Format.exponentBias, Format.mantissaBits]
  push_cast [Nat.cast_sub hpow]
  ring

theorem toNat_neg_one : (-1#_ : BitVec spec.exponentBits).toNat = 2 ^ spec.exponentBits - 1 := by
  rw [BitVec.neg_one_eq_allOnes, BitVec.toNat_allOnes]

theorem unpack_zero {b : BitVec spec.numBits} (h : magnitude b = 0) :
    unpack spec b = .zero (sign b) := by
  have he : unpackExponent b = 0#_ := BitVec.eq_of_toNat_eq (by simp [toNat_unpackExponent, h])
  have hm : unpackMantissa b = 0#_ := BitVec.eq_of_toNat_eq (by simp [toNat_unpackMantissa, h])
  have hne : (0#_ : BitVec spec.exponentBits) ≠ -1#_ := by simp [Nat.ne_of_gt spec.he]
  unfold UnpackedFloat.unpack
  simp only [he, hm, if_neg hne, if_true, dif_pos, sign]

theorem unpack_infinity {b : BitVec spec.numBits} (h : magnitude b = limit spec) :
    unpack spec b = .infinity (sign b) := by
  have he : unpackExponent b = -1#_ := BitVec.eq_of_toNat_eq <| by
    rw [toNat_unpackExponent, h, toNat_neg_one, limit, Nat.mul_div_cancel _ (Nat.two_pow_pos _)]
  have hm : unpackMantissa b = 0#_ := BitVec.eq_of_toNat_eq <| by
    rw [toNat_unpackMantissa, h, limit, Nat.mul_mod_left]
    rfl
  unfold UnpackedFloat.unpack
  simp only [he, hm, if_true, sign]

theorem magnitude_lt (b : BitVec spec.numBits) :
    magnitude b < limit spec + 2 ^ spec.mantissaBitsWithoutImplicit := by
  have hpow := Nat.two_pow_pos spec.mantissaBitsWithoutImplicit
  have hlimit : limit spec + 2 ^ spec.mantissaBitsWithoutImplicit =
      2 ^ (spec.exponentBits + spec.mantissaBitsWithoutImplicit) := by
    rw [limit, ← Nat.succ_mul, Nat.succ_eq_add_one, Nat.sub_add_cancel Nat.one_le_two_pow,
      ← Nat.pow_add]
  rw [hlimit]
  exact Nat.mod_lt _ (Nat.two_pow_pos _)

theorem unpack_nan {b : BitVec spec.numBits} (h : limit spec < magnitude b) :
    UnpackedFloat.unpack spec b = .notANumber := by
  have hpow := Nat.two_pow_pos spec.mantissaBitsWithoutImplicit
  obtain ⟨f, hf⟩ := Nat.exists_eq_add_of_le (Nat.le_of_lt h)
  have hlt : f < 2 ^ spec.mantissaBitsWithoutImplicit := by
    have := magnitude_lt b
    omega
  rw [limit, Nat.mul_comm] at hf
  have he : unpackExponent b = -1#_ := BitVec.eq_of_toNat_eq <| by
    rw [toNat_unpackExponent, toNat_neg_one, hf, Nat.mul_add_div hpow, Nat.div_eq_of_lt hlt,
      Nat.add_zero]
  have hm : unpackMantissa b ≠ 0#_ := by
    intro heq
    have hzero := congrArg BitVec.toNat heq
    rw [toNat_unpackMantissa, hf, Nat.mul_add_mod, Nat.mod_eq_of_lt hlt, BitVec.toNat_zero] at hzero
    rw [hzero, Nat.add_zero, Nat.mul_comm] at hf
    exact absurd hf (Nat.ne_of_gt h)
  unfold UnpackedFloat.unpack
  simp only [he, if_true, if_neg hm]

theorem unpackExponent_ne {b : BitVec spec.numBits} (h : magnitude b < limit spec) :
    unpackExponent b ≠ -1#_ := by
  intro heq
  have hfield := congrArg BitVec.toNat heq
  have hlt : magnitude b / 2 ^ spec.mantissaBitsWithoutImplicit < 2 ^ spec.exponentBits - 1 :=
    Nat.div_lt_of_lt_mul (by rwa [Nat.mul_comm])
  rw [toNat_unpackExponent, toNat_neg_one] at hfield
  omega

theorem pack_unpack_of_finite {b : BitVec spec.numBits} (heb : 2 ≤ spec.exponentBits)
    (h : magnitude b < limit spec) :
    UnpackedFloat.pack spec (UnpackedFloat.unpack spec b) = b := by
  rw [pack_unpack b heb, if_neg]
  simp [isNaNBits, unpackExponent_ne h]

theorem unpack_finite {b : BitVec spec.numBits} (hpos : 0 < magnitude b)
    (h : magnitude b < limit spec) :
    unpack spec b = .finite (sign b) (significand spec (magnitude b))
      (spec.minExponent + scale spec (magnitude b)) (significand_pos hpos) := by
  have he := unpackExponent_ne h
  have hexp := minExponent_eq spec
  unfold UnpackedFloat.unpack
  rw [if_neg he]
  rcases Nat.lt_or_ge (magnitude b) (2 ^ spec.mantissaBitsWithoutImplicit) with hsub | hnorm
  · have hz : unpackExponent b = 0#_ := BitVec.eq_of_toNat_eq <| by
      rw [toNat_unpackExponent, Nat.div_eq_of_lt hsub, BitVec.toNat_zero]
    have hm : (unpackMantissa b).toNat = magnitude b := by
      rw [toNat_unpackMantissa, Nat.mod_eq_of_lt hsub]
    have hne : unpackMantissa b ≠ 0#_ := by
      intro heq
      rw [heq, BitVec.toNat_zero] at hm
      omega
    have hscale : scale spec (magnitude b) = 0 := by rw [scale, Nat.div_eq_of_lt hsub]
    simp only [hz, if_true, dif_neg hne, hm, hscale, significand, if_pos hsub, sign,
      BitVec.toNat_zero]
    congr 1
    omega
  · have hone := Nat.div_pos hnorm (Nat.two_pow_pos spec.mantissaBitsWithoutImplicit)
    have hz : unpackExponent b ≠ 0#_ := by
      intro heq
      have := congrArg BitVec.toNat heq
      rw [toNat_unpackExponent, BitVec.toNat_zero] at this
      omega
    have hm : (1#1 ++ unpackMantissa b).toNat = significand spec (magnitude b) := by
      rw [BitVec.toNat_append, ← Nat.shiftLeft_add_eq_or_of_lt (unpackMantissa b).isLt,
        toNat_unpackMantissa, significand, if_neg (Nat.not_lt.2 hnorm), Nat.shiftLeft_eq]
      simp
    simp only [if_neg hz, hm, sign]
    congr 1
    rw [toNat_unpackExponent, scale]
    omega

/-! ## Packing -/

variable (spec) in
/-- The form a number is kept in: a significand that fits, with its hidden bit unless the exponent is
the smallest one. -/
def Canonical (m : Nat) (e : Int) : Prop :=
  m < 2 ^ spec.mantissaBits ∧ spec.minExponent ≤ e ∧
    (2 ^ spec.mantissaBitsWithoutImplicit ≤ m ∨ e = spec.minExponent)

theorem canonical_significand (g : Nat) :
    Canonical spec (significand spec g) (spec.minExponent + scale spec g) := by
  have hmod := Nat.mod_lt g (Nat.two_pow_pos spec.mantissaBitsWithoutImplicit)
  have hhalf := two_pow_mantissaBits spec
  refine ⟨?_, by omega, ?_⟩
  · unfold significand
    split <;> omega
  · rcases Nat.lt_or_ge g (2 ^ spec.mantissaBitsWithoutImplicit) with hsub | hnorm
    · exact .inr (by rw [scale, Nat.div_eq_of_lt hsub]; omega)
    · exact .inl (by rw [significand, if_neg (Nat.not_lt.2 hnorm)]; omega)

theorem rank_significand (g : Nat) :
    rank spec (significand spec g) (spec.minExponent + scale spec g) = g := by
  have hdiv := Nat.div_add_mod' g (2 ^ spec.mantissaBitsWithoutImplicit)
  have hscale : (spec.minExponent + scale spec g - spec.minExponent).toNat = scale spec g := by omega
  rw [rank, hscale, significand, scale]
  split
  case isTrue hsub => rw [Nat.div_eq_of_lt hsub, Nat.zero_sub, Nat.zero_mul, Nat.zero_add]
  case isFalse hnorm =>
    have hone := Nat.div_pos (Nat.not_lt.1 hnorm) (Nat.two_pow_pos _)
    rw [Nat.sub_mul, Nat.one_mul]
    have := Nat.mul_le_mul_right (2 ^ spec.mantissaBitsWithoutImplicit) hone
    omega

theorem units_rank {m : Nat} {e : Int} (hc : Canonical spec m e) :
    units spec (rank spec m e) = m * 2 ^ (e - spec.minExponent).toNat := by
  obtain ⟨hlt, hlow, hfull⟩ := hc
  rw [two_pow_mantissaBits] at hlt
  rcases Nat.lt_or_ge m (2 ^ spec.mantissaBitsWithoutImplicit) with hsub | hnorm
  · have he : e = spec.minExponent := by omega
    rw [rank, he, Int.sub_self, Int.toNat_zero, Nat.zero_mul, Nat.zero_add, units_of_lt hsub,
      Nat.pow_zero, Nat.mul_one]
  · obtain ⟨f, rfl⟩ := Nat.exists_eq_add_of_le hnorm
    have hrank : rank spec (2 ^ spec.mantissaBitsWithoutImplicit + f) e =
        ((e - spec.minExponent).toNat + 1) * 2 ^ spec.mantissaBitsWithoutImplicit + f := by
      rw [rank]
      ring
    rw [hrank, units_fields (by omega)]

@[simp] theorem sign_pack_zero (s : Sign) : sign (UnpackedFloat.pack spec (.zero s)) = s :=
  sign_packComponents s _ _

@[simp] theorem sign_pack_infinity (s : Sign) : sign (UnpackedFloat.pack spec (.infinity s)) = s :=
  sign_packComponents s _ _

@[simp] theorem sign_pack_finite (s : Sign) {m : Nat} (e : Int) (hm : 0 < m) :
    sign (UnpackedFloat.pack spec (.finite s m e hm)) = s := by
  simp only [UnpackedFloat.pack]
  split
  · exact sign_packComponents s _ _
  · split
    · exact sign_packComponents s _ _
    · exact sign_packComponents s _ _

@[simp] theorem magnitude_pack_zero (s : Sign) :
    magnitude (UnpackedFloat.pack spec (.zero s)) = 0 := by
  rw [UnpackedFloat.pack, packedZero, magnitude_packComponents]
  simp

theorem magnitude_packedInfinity (s : Sign) :
    magnitude (packedInfinity spec s) = limit spec := by
  rw [packedInfinity, magnitude_packComponents, toNat_neg_one, limit]
  simp

@[simp] theorem magnitude_pack_infinity (s : Sign) :
    magnitude (UnpackedFloat.pack spec (.infinity s)) = limit spec :=
  magnitude_packedInfinity s

theorem magnitude_pack_finite (s : Sign) {m : Nat} {e : Int} (hm : 0 < m)
    (heb : 2 ≤ spec.exponentBits) (hc : Canonical spec m e) :
    magnitude (UnpackedFloat.pack spec (.finite s m e hm)) = min (rank spec m e) (limit spec) := by
  obtain ⟨hlt, hlow, hfull⟩ := hc
  obtain ⟨k, rfl⟩ : ∃ k : Nat, e = spec.minExponent + k := ⟨(e - spec.minExponent).toNat, by omega⟩
  have hexp := minExponent_eq spec
  have hbiased : (spec.minExponent + k + spec.exponentBias +
      spec.mantissaBitsWithoutImplicit : Int).toNat = k + 1 := by omega
  have hk : (spec.minExponent + k - spec.minExponent).toNat = k := by omega
  have hhalf := two_pow_mantissaBits spec
  have hmany : 2 ^ 2 ≤ 2 ^ spec.exponentBits := Nat.pow_le_pow_right Nat.two_pos heb
  simp only [UnpackedFloat.pack, hbiased, rank, hk, limit]
  split
  case isTrue hover =>
    have hk1 : 2 ^ spec.exponentBits - 1 ≤ k + 1 := by omega
    have hscaled := Nat.mul_le_mul_right (2 ^ spec.mantissaBitsWithoutImplicit) hk1
    rw [Nat.add_mul, Nat.one_mul] at hscaled
    rw [magnitude_packedInfinity, limit, Nat.min_eq_right (by omega)]
  case isFalse hunder =>
    have hk2 : k + 2 ≤ 2 ^ spec.exponentBits - 1 := by omega
    have hscaled := Nat.mul_le_mul_right (2 ^ spec.mantissaBitsWithoutImplicit) hk2
    rw [Nat.add_mul] at hscaled
    rw [Nat.min_eq_left (by omega)]
    split
    case isTrue hlog =>
      have hbit : 2 ^ spec.mantissaBitsWithoutImplicit ≤ m := by
        have := Nat.log2_self_le (Nat.ne_of_gt hm)
        rwa [show m.log2 = spec.mantissaBitsWithoutImplicit by
          simp only [Format.mantissaBits] at hlog; omega] at this
      have hrest : m % 2 ^ spec.mantissaBitsWithoutImplicit =
          m - 2 ^ spec.mantissaBitsWithoutImplicit := by
        rw [Nat.mod_eq_sub_mod hbit, Nat.mod_eq_of_lt (by omega)]
      rw [magnitude_packComponents, BitVec.toNat_ofNat, BitVec.toNat_ofNat, hrest,
        Nat.mod_eq_of_lt (by omega), Nat.add_mul, Nat.one_mul]
      omega
    case isFalse hlog =>
      have hsub : m < 2 ^ spec.mantissaBitsWithoutImplicit := by
        by_contra hbit
        apply hlog
        rw [(Nat.log2_eq_iff (Nat.ne_of_gt hm)).2 ⟨Nat.not_lt.1 hbit, _⟩, Format.mantissaBits,
          Nat.add_comm]
        rwa [Nat.pow_succ, Nat.mul_comm, ← hhalf]
      have hkz : k = 0 := by omega
      rw [magnitude_packComponents, BitVec.toNat_ofNat, BitVec.toNat_ofNat, Nat.mod_eq_of_lt hsub, hkz]
      simp

/-! ## Rounded numbers -/

theorem unitExponent_of_canonical {m : Nat} {e : Int} (hm : 0 < m) (hc : Canonical spec m e) :
    unitExponent spec m e = e := by
  obtain ⟨hlt, hlow, hfull⟩ := hc
  apply Int.le_antisymm (unitExponent_of_lt hlt hlow)
  rcases hfull with hbit | rfl
  · have hlog := (Nat.le_log2 (Nat.ne_of_gt hm)).2 hbit
    simp only [unitExponent, Format.targetExponent, totalExponent, Format.mantissaBits]
    omega
  · exact minExponent_le _ _ _

theorem nearest_zero_right (m : Nat) : nearest m 0 = m := by
  simp [nearest]

theorem place_of_canonical {m : Nat} {e : Int} (hm : 0 < m) (hc : Canonical spec m e) :
    place spec m e = rank spec m e := by
  rw [place, unitExponent_of_canonical hm hc, Int.sub_self, nearest_zero_right]

theorem round_of_canonical (s : Sign) {m : Nat} {e : Int} (hm : 0 < m) (hc : Canonical spec m e) :
    UnpackedFloat.round spec s m e = .finite s m e hm := by
  rw [round_eq s hm, unitExponent_of_canonical hm hc, Int.sub_self, nearest_zero_right, settle,
    dif_neg (Nat.ne_of_gt hm), if_neg (Nat.ne_of_lt hc.1)]

@[simp] theorem sign_pack_settle (s : Sign) (r : Nat) (t : Int) :
    sign (UnpackedFloat.pack spec (settle spec s r t)) = s := by
  unfold settle
  split
  · exact sign_pack_zero s
  · split <;> exact sign_pack_finite s _ _

theorem magnitude_pack_settle (s : Sign) {r : Nat} {t : Int} (heb : 2 ≤ spec.exponentBits)
    (hr : r ≤ 2 ^ spec.mantissaBits) (hlow : spec.minExponent ≤ t)
    (hfull : 2 ^ spec.mantissaBitsWithoutImplicit ≤ r ∨ t = spec.minExponent) :
    magnitude (UnpackedFloat.pack spec (settle spec s r t)) = min (rank spec r t) (limit spec) := by
  have hhalf := two_pow_mantissaBits spec
  have hbit := Nat.two_pow_pos spec.mantissaBitsWithoutImplicit
  unfold settle
  split
  case isTrue hzero =>
    have ht : t = spec.minExponent := by omega
    rw [magnitude_pack_zero, rank, hzero, ht]
    simp
  case isFalse hpos =>
    split
    case isTrue hcarry =>
      have hc : Canonical spec (2 ^ spec.mantissaBitsWithoutImplicit) (t + 1) :=
        ⟨by omega, by omega, .inl (Nat.le_refl _)⟩
      have hnext : (t + 1 - spec.minExponent).toNat = (t - spec.minExponent).toNat + 1 := by omega
      rw [magnitude_pack_finite s hbit heb hc, rank, rank, hnext, hcarry, hhalf, Nat.add_mul]
      congr 1
      omega
    case isFalse hne =>
      exact magnitude_pack_finite s _ heb ⟨Nat.lt_of_le_of_ne hr hne, hlow, hfull⟩

theorem magnitude_pack_round (s : Sign) {m : Nat} (hm : 0 < m) (e : Int)
    (heb : 2 ≤ spec.exponentBits) :
    magnitude (UnpackedFloat.pack spec (UnpackedFloat.round spec s m e)) =
      min (place spec m e) (limit spec) := by
  rw [round_eq s hm, place]
  apply magnitude_pack_settle s heb (nearest_le spec m e) (minExponent_le spec m e)
  by_cases h : unitExponent spec m e = spec.minExponent
  · exact .inr h
  · exact .inl (le_nearest hm h)

theorem sign_pack_round (s : Sign) {m : Nat} (hm : 0 < m) (e : Int) :
    sign (UnpackedFloat.pack spec (UnpackedFloat.round spec s m e)) = s := by
  rw [round_eq s hm, sign_pack_settle]

/-- The place of a finite number of one format among those of another. -/
theorem place_significand {spec' : Format} {g : Nat} (h : 0 < g) :
    place spec (significand spec' g) (spec'.minExponent + scale spec' g) =
      place spec (units spec' g) spec'.minExponent := by
  have hscale : spec'.minExponent = spec'.minExponent + scale spec' g - scale spec' g := by omega
  have hpos : 0 < significand spec' g := significand_pos h
  conv_rhs => rw [units, hscale, place_mul_pow hpos]

/-- A finite magnitude is the place of the number it stands for. -/
theorem place_units {g : Nat} (h : 0 < g) : place spec (units spec g) spec.minExponent = g := by
  rw [← place_significand h, place_of_canonical (significand_pos h) (canonical_significand g),
    rank_significand]

theorem units_zero : units spec 0 = 0 := by
  simp [units, significand]

theorem units_pos {g : Nat} (h : 0 < g) : 0 < units spec g :=
  Nat.mul_pos (significand_pos h) (Nat.two_pow_pos _)

/-- A larger magnitude stands for a larger number. -/
theorem units_mono {g g' : Nat} (h : g ≤ g') : units spec g ≤ units spec g' := by
  by_contra hlt
  rcases Nat.eq_zero_or_pos g with rfl | hpos
  · rw [units_zero] at hlt
    omega
  · have hplace : place spec (units spec g') spec.minExponent ≤
        place spec (units spec g) spec.minExponent := place_mono _ (Nat.le_of_not_le hlt)
    rw [place_units hpos, place_units (Nat.lt_of_lt_of_le hpos h)] at hplace
    rw [Nat.le_antisymm h hplace] at hlt
    exact hlt (Nat.le_refl _)

end DenseMatmul.Rounding
