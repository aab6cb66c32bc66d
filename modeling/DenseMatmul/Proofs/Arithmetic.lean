import DenseMatmul.Proofs.Encoding
/-!
# Exact arithmetic

Products and sums of finite numbers are the exact ones, rounded. So on whole numbers arithmetic is
exact as long as the result has no more bits than a significand: the product of two is their
product, and a running sum that starts at positive zero holds the nearest number to the exact sum,
which is never a negative zero.
-/

namespace DenseMatmul.Rounding

open Float.Model Float.Model.UnpackedFloat

variable {spec : Format}

/-! ## Signed numbers -/

theorem Sign.apply_mul_apply (s s' : Sign) (x y : Int) :
    s.apply x * s'.apply y = (s * s').apply (x * y) := by
  cases s <;> cases s'
  · exact Int.neg_mul_neg x y
  · exact Int.neg_mul x y
  · exact Int.mul_neg x y
  · rfl

theorem Sign.apply_mul (s : Sign) (x y : Int) : s.apply x * y = s.apply (x * y) := by
  cases s
  · exact Int.neg_mul x y
  · rfl

@[simp] theorem Sign.apply_zero (s : Sign) : s.apply 0 = 0 := by
  cases s <;> rfl

theorem normalize_zero (e : Int) (s : Sign) : UnpackedFloat.normalize spec 0 e s = .zero s := rfl

/-- Neither sign of a nonzero number is lost, so only a zero needs one to be given. -/
theorem normalize_apply (s zeroSign : Sign) {m : Nat} (hm : 0 < m) (e : Int) :
    UnpackedFloat.normalize spec (s.apply m) e zeroSign = UnpackedFloat.round spec s m e := by
  have hpos : (0 : Int) < m := Int.natCast_pos.2 hm
  cases s with
  | negative =>
    have hcompare : compare (-(m : Int)) 0 = .lt := compare_lt_iff_lt.2 (by omega)
    simp [UnpackedFloat.normalize, Sign.apply, hcompare]
  | positive =>
    have hcompare : compare (m : Int) 0 = .gt := compare_gt_iff_gt.2 hpos
    simp [UnpackedFloat.normalize, Sign.apply, hcompare]

theorem exists_apply {z : Int} (hz : z ≠ 0) : ∃ (s : Sign) (m : Nat), 0 < m ∧ z = s.apply m := by
  rcases Int.lt_or_gt_of_ne hz with hneg | hpos
  · exact ⟨.negative, z.natAbs, by omega, by simp only [Sign.apply]; omega⟩
  · exact ⟨.positive, z.natAbs, by omega, by simp only [Sign.apply]; omega⟩

theorem round_mul_pow (s : Sign) {m : Nat} (hm : 0 < m) (j : Nat) (e : Int) :
    UnpackedFloat.round spec s (m * 2 ^ j) (e - j) =
      UnpackedFloat.round spec s m e := by
  have hswap : e - j - unitExponent spec m e = e - unitExponent spec m e - j := by omega
  rw [round_eq s hm, round_eq s (Nat.mul_pos hm (Nat.two_pow_pos j)),
    unitExponent_mul_pow spec hm, hswap, nearest_mul_pow]

theorem normalize_mul_pow (z : Int) (j : Nat) (e : Int) (zeroSign : Sign) :
    UnpackedFloat.normalize spec (z * (2 ^ j : Nat)) (e - j) zeroSign =
      UnpackedFloat.normalize spec z e zeroSign := by
  by_cases hz : z = 0
  · rw [hz, Int.zero_mul, normalize_zero, normalize_zero]
  · obtain ⟨s, m, hm, rfl⟩ := exists_apply hz
    rw [Sign.apply_mul, ← Int.natCast_mul, normalize_apply s _ hm,
      normalize_apply s _ (Nat.mul_pos hm (Nat.two_pow_pos j)), round_mul_pow s hm]

theorem roundWithAccuracy_eq_round (s : Sign) {m : Nat} (hm : 0 < m) {e : Int}
    (he : e ≤ unitExponent spec m e) :
    roundWithAccuracy spec s m e .exact = UnpackedFloat.round spec s m e := by
  rw [roundWithAccuracy_eq s he, round_eq s hm]

/-- A finite number of one format, rounded to another. -/
theorem round_significand {spec' : Format} (s : Sign) {g : Nat} (hg : 0 < g) :
    UnpackedFloat.round spec s (significand spec' g) (spec'.minExponent + scale spec' g) =
      UnpackedFloat.round spec s (units spec' g) spec'.minExponent := by
  have hscale : spec'.minExponent = spec'.minExponent + scale spec' g - scale spec' g := by omega
  have hpos : 0 < significand spec' g := significand_pos hg
  conv_rhs => rw [units, hscale, round_mul_pow s hpos]

/-- A finite number is rounded to itself. -/
theorem round_units (s : Sign) {g : Nat} (hg : 0 < g) :
    UnpackedFloat.round spec s (units spec g) spec.minExponent =
      .finite s (significand spec g) (spec.minExponent + scale spec g) (significand_pos hg) := by
  rw [← round_significand s hg]
  exact round_of_canonical s (significand_pos hg) (canonical_significand g)

/-! ## Arithmetic on encoded numbers -/

/-- A finite number as a multiple of the smallest positive one. -/
def signedUnits (b : BitVec spec.numBits) : Int := (sign b).apply (units spec (magnitude b))

theorem minExponent_nonpos : spec.minExponent ≤ 0 := by
  have := minExponent_eq spec
  have := spec.hm
  omega

theorem exponents_le {m m' : Nat} {e e' : Int} (hm : 0 < m) (hm' : 0 < m')
    (hc : Canonical spec m e) (hc' : Canonical spec m' e') :
    e + e' ≤ unitExponent spec (m * m') (e + e') := by
  have hlow := minExponent_le spec (m * m') (e + e')
  have hzero : spec.minExponent ≤ 0 := minExponent_nonpos
  -- With a hidden bit on either side the product has at least as many bits as are kept.
  have hfull : 2 ^ spec.mantissaBitsWithoutImplicit ≤ m * m' →
      e + e' ≤ unitExponent spec (m * m') (e + e') := by
    intro hbit
    have hlog := (Nat.le_log2 (Nat.ne_of_gt (Nat.mul_pos hm hm'))).2 hbit
    simp only [unitExponent, Format.targetExponent, totalExponent, Format.mantissaBits]
    omega
  rcases hc.2.2 with hbit | rfl
  · exact hfull (Nat.le_trans hbit (Nat.le_mul_of_pos_right m hm'))
  · rcases hc'.2.2 with hbit | rfl
    · exact hfull (Nat.le_trans hbit (Nat.le_mul_of_pos_left m' hm))
    · omega

theorem round_mul_units (s : Sign) {g g' : Nat} (hg : 0 < g) (hg' : 0 < g') :
    roundWithAccuracy spec s (significand spec g * significand spec g')
        (spec.minExponent + scale spec g + (spec.minExponent + scale spec g')) .exact =
      UnpackedFloat.round spec s (units spec g * units spec g') (2 * spec.minExponent) := by
  have hpos : 0 < significand spec g := significand_pos hg
  have hpos' : 0 < significand spec g' := significand_pos hg'
  have hsplit : units spec g * units spec g' =
      significand spec g * significand spec g' * 2 ^ (scale spec g + scale spec g') := by
    rw [units, units, Nat.pow_add]
    ring
  have hexponents : 2 * spec.minExponent = spec.minExponent + scale spec g +
      (spec.minExponent + scale spec g') - ((scale spec g + scale spec g' : Nat) : Int) := by
    push_cast
    ring
  have hmul := Nat.mul_pos hpos hpos'
  rw [hsplit, hexponents, round_mul_pow _ hmul]
  exact roundWithAccuracy_eq_round s hmul
    (exponents_le hpos hpos' (canonical_significand g) (canonical_significand g'))

/-- A product of finite numbers is their exact product, rounded. -/
theorem mul_unpack {b b' : BitVec spec.numBits} (hb : magnitude b < limit spec)
    (hb' : magnitude b' < limit spec) :
    UnpackedFloat.mul spec (UnpackedFloat.unpack spec b) (UnpackedFloat.unpack spec b') =
      UnpackedFloat.normalize spec (signedUnits b * signedUnits b') (2 * spec.minExponent)
        (sign b * sign b') := by
  rw [signedUnits, signedUnits, Sign.apply_mul_apply, ← Int.natCast_mul]
  rcases Nat.eq_zero_or_pos (magnitude b) with hz | hpos
  · rw [unpack_zero hz, hz, units_zero, Nat.zero_mul, Int.natCast_zero, Sign.apply_zero,
      normalize_zero]
    rcases Nat.eq_zero_or_pos (magnitude b') with hz' | hpos'
    · rw [unpack_zero hz']
      rfl
    · rw [unpack_finite hpos' hb']
      rfl
  · rcases Nat.eq_zero_or_pos (magnitude b') with hz' | hpos'
    · rw [unpack_zero hz', unpack_finite hpos hb, hz', units_zero, Nat.mul_zero, Int.natCast_zero,
        Sign.apply_zero, normalize_zero]
      rfl
    · rw [unpack_finite hpos hb, unpack_finite hpos' hb',
        normalize_apply _ _ (Nat.mul_pos (units_pos hpos) (units_pos hpos'))]
      exact round_mul_units _ hpos hpos'

theorem apply_units (s : Sign) {g j : Nat} (h : j ≤ scale spec g) :
    s.apply (units spec g) =
      s.apply (significand spec g * 2 ^ (scale spec g - j) : Nat) * (2 ^ j : Nat) := by
  rw [Sign.apply_mul, ← Int.natCast_mul, Nat.mul_assoc, ← Nat.pow_add, Nat.sub_add_cancel h, units]

theorem add_units (s s' : Sign) {g g' : Nat} (hg : 0 < g) (hg' : 0 < g') :
    UnpackedFloat.add spec
        (.finite s (significand spec g) (spec.minExponent + scale spec g) (significand_pos hg))
        (.finite s' (significand spec g') (spec.minExponent + scale spec g')
          (significand_pos hg')) =
      UnpackedFloat.normalize spec (s.apply (units spec g) + s'.apply (units spec g'))
        spec.minExponent .positive := by
  -- Both significands are brought to the smaller of the two exponents.
  obtain ⟨j, hj⟩ : ∃ j, j = min (scale spec g) (scale spec g') := ⟨_, rfl⟩
  have hlow : spec.minExponent = spec.minExponent + j - j := by omega
  have hmin : min (spec.minExponent + scale spec g : Int) (spec.minExponent + scale spec g') =
      spec.minExponent + j := by omega
  have hshift : ∀ k : Nat, (spec.minExponent + k - (spec.minExponent + j)).toNat = k - j := by
    intro k
    omega
  rw [apply_units s (show j ≤ scale spec g by omega),
    apply_units s' (show j ≤ scale spec g' by omega), ← Int.add_mul]
  conv_rhs => rw [hlow, normalize_mul_pow]
  simp only [UnpackedFloat.add, decreaseExponent, hmin, hshift, Nat.shiftLeft_eq]

/-- A sum of finite numbers is their exact sum, rounded, unless it adds to a negative zero. -/
theorem add_unpack {b b' : BitVec spec.numBits} (hb : magnitude b < limit spec)
    (hb' : magnitude b' < limit spec) (hzero : magnitude b = 0 → sign b = .positive) :
    UnpackedFloat.add spec (UnpackedFloat.unpack spec b) (UnpackedFloat.unpack spec b') =
      UnpackedFloat.normalize spec (signedUnits b + signedUnits b') spec.minExponent .positive := by
  rw [signedUnits, signedUnits]
  rcases Nat.eq_zero_or_pos (magnitude b) with hz | hpos
  · rw [unpack_zero hz, hz, units_zero, hzero hz, Int.natCast_zero, Sign.apply_zero, Int.zero_add]
    rcases Nat.eq_zero_or_pos (magnitude b') with hz' | hpos'
    · rw [unpack_zero hz', hz', units_zero, Int.natCast_zero, Sign.apply_zero, normalize_zero]
      cases sign b' <;> rfl
    · rw [normalize_apply _ _ (units_pos hpos'), round_units _ hpos', unpack_finite hpos' hb']
      rfl
  · rcases Nat.eq_zero_or_pos (magnitude b') with hz' | hpos'
    · rw [unpack_zero hz', hz', units_zero, Int.natCast_zero, Sign.apply_zero, Int.add_zero,
        normalize_apply _ _ (units_pos hpos), round_units _ hpos, unpack_finite hpos hb]
      rfl
    · rw [unpack_finite hpos hb, unpack_finite hpos' hb']
      exact add_units _ _ hpos hpos'

/-! ## Whole numbers -/

variable (spec) in
/-- One is this power of two above the smallest positive number. -/
def depth : Nat := (-spec.minExponent).toNat

theorem minExponent_eq_neg_depth : spec.minExponent = 0 - depth spec := by
  have hzero : spec.minExponent ≤ 0 := minExponent_nonpos
  rw [depth]
  omega

/-- The bits stand for the whole number `z`. -/
structure IsWhole (b : BitVec spec.numBits) (z : Int) : Prop where
  finite : magnitude b < limit spec
  units_eq : signedUnits b = z * (2 ^ depth spec : Nat)

variable (spec) in
/-- The bits of the number nearest to `z`, which are those of positive zero for zero. -/
def encode (z : Int) : BitVec spec.numBits :=
  UnpackedFloat.pack spec (UnpackedFloat.ofInt spec z)

variable (hroom : spec.mantissaBitsWithoutImplicit < spec.exponentBias)

include hroom in
theorem rank_lt_limit {m : Nat} {e : Int} (hc : Canonical spec m e) (he : e ≤ 1) :
    rank spec m e < limit spec := by
  have hexp := minExponent_eq spec
  have hbias : 2 ^ spec.exponentBits = 2 * spec.exponentBias + 2 := by
    have hone : 1 ≤ 2 ^ (spec.exponentBits - 1) := Nat.one_le_two_pow
    have hsucc : spec.exponentBits = spec.exponentBits - 1 + 1 := by
      have := spec.he
      omega
    rw [hsucc, Nat.pow_succ, Format.exponentBias]
    omega
  have hk : (e - spec.minExponent).toNat + 2 ≤ 2 ^ spec.exponentBits - 1 := by omega
  have hscaled := Nat.mul_le_mul_right (2 ^ spec.mantissaBitsWithoutImplicit) hk
  have hlt := hc.1
  rw [two_pow_mantissaBits] at hlt
  rw [Nat.add_mul] at hscaled
  rw [rank, limit]
  omega

include hroom in
/-- The exponents go far enough up for all whole numbers with as many bits as a significand. -/
theorem exists_magnitude {m : Nat} (hm : 0 < m) (h : m ≤ 2 ^ spec.mantissaBits) :
    ∃ g, 0 < g ∧ g < limit spec ∧ units spec g = m * 2 ^ depth spec := by
  have hexp := minExponent_eq spec
  rcases Nat.lt_or_eq_of_le h with hlt | rfl
  · -- The significand is filled up with zeros from below.
    have hlog : m.log2 < spec.mantissaBits := (Nat.log2_lt (Nat.ne_of_gt hm)).2 hlt
    obtain ⟨d, hd⟩ : ∃ d, m.log2 + d = spec.mantissaBitsWithoutImplicit :=
      ⟨spec.mantissaBitsWithoutImplicit - m.log2, by
        simp only [Format.mantissaBits] at hlog
        omega⟩
    have hc : Canonical spec (m * 2 ^ d) (-d) := by
      refine ⟨?_, by omega, .inl ?_⟩
      · have hbits : spec.mantissaBits = m.log2 + 1 + d := by
          rw [Format.mantissaBits]
          omega
        rw [hbits, Nat.pow_add]
        exact Nat.mul_lt_mul_of_pos_right Nat.lt_log2_self (Nat.two_pow_pos d)
      · rw [← hd, Nat.pow_add]
        exact Nat.mul_le_mul_right _ (Nat.log2_self_le (Nat.ne_of_gt hm))
    have hdepth : d + (-d - spec.minExponent : Int).toNat = depth spec := by
      rw [depth]
      omega
    refine ⟨rank spec (m * 2 ^ d) (-d), ?_, rank_lt_limit hroom hc (by omega), ?_⟩
    · exact Nat.lt_of_lt_of_le (Nat.mul_pos hm (Nat.two_pow_pos d)) (Nat.le_add_left _ _)
    · rw [units_rank hc, Nat.mul_assoc, ← Nat.pow_add, hdepth]
  · have hhalf := two_pow_mantissaBits spec
    have hbit := Nat.two_pow_pos spec.mantissaBitsWithoutImplicit
    have hc : Canonical spec (2 ^ spec.mantissaBitsWithoutImplicit) 1 :=
      ⟨by omega, by omega, .inl (Nat.le_refl _)⟩
    have hdepth : (1 - spec.minExponent).toNat = depth spec + 1 := by
      rw [depth]
      omega
    refine ⟨rank spec (2 ^ spec.mantissaBitsWithoutImplicit) 1, ?_,
      rank_lt_limit hroom hc (Int.le_refl 1), ?_⟩
    · exact Nat.lt_of_lt_of_le hbit (Nat.le_add_left _ _)
    · rw [units_rank hc, hdepth, hhalf]
      ring

theorem isWhole_zero {b : BitVec spec.numBits} (h : magnitude b = 0) : IsWhole b 0 := by
  refine ⟨?_, by simp [signedUnits, h, units_zero]⟩
  rw [h]
  exact limit_pos

include hroom in
theorem two_le_exponentBits : 2 ≤ spec.exponentBits := by
  have hm := spec.hm
  by_contra hlt
  have hone : spec.exponentBits - 1 = 0 := by omega
  rw [Format.exponentBias, hone] at hroom
  omega

include hroom in
/-- A whole number with no more bits than a significand is rounded to itself. -/
theorem isWhole_normalize {z : Int} (h : z.natAbs ≤ 2 ^ spec.mantissaBits) (zeroSign : Sign) :
    IsWhole (UnpackedFloat.pack spec (UnpackedFloat.normalize spec z 0 zeroSign)) z := by
  by_cases hz : z = 0
  · rw [hz, normalize_zero]
    exact isWhole_zero (magnitude_pack_zero zeroSign)
  · obtain ⟨s, m, hm, rfl⟩ := exists_apply hz
    have habs : (s.apply m).natAbs = m := by cases s <;> simp [Sign.apply]
    obtain ⟨g, hpos, hlt, hg⟩ := exists_magnitude hroom hm (habs ▸ h)
    have hround : UnpackedFloat.round spec s m 0 =
        UnpackedFloat.round spec s (units spec g) spec.minExponent := by
      rw [hg, minExponent_eq_neg_depth, round_mul_pow s hm]
    have heb := two_le_exponentBits hroom
    have hunits : 0 < units spec g := units_pos hpos
    have hmagnitude := magnitude_pack_round s hunits spec.minExponent heb
    rw [place_units hpos, Nat.min_eq_left (Nat.le_of_lt hlt)] at hmagnitude
    rw [normalize_apply s _ hm, hround]
    refine ⟨by rwa [hmagnitude], ?_⟩
    rw [signedUnits, hmagnitude, sign_pack_round s hunits, hg, Int.natCast_mul,
      Sign.apply_mul]

theorem sign_encode_zero : sign (encode spec 0) = .positive := sign_pack_zero _

include hroom in
theorem isWhole_encode {z : Int} (h : z.natAbs ≤ 2 ^ spec.mantissaBits) :
    IsWhole (encode spec z) z :=
  isWhole_normalize hroom h .positive

theorem Sign.apply_inj {s s' : Sign} {m m' : Nat} (hm : 0 < m) (h : s.apply m = s'.apply m') :
    s = s' ∧ m = m' := by
  cases s <;> cases s' <;> simp only [Sign.apply] at h
  · exact ⟨rfl, by omega⟩
  · omega
  · omega
  · exact ⟨rfl, by omega⟩

theorem magnitude_pos_of_signedUnits {b : BitVec spec.numBits} (h : signedUnits b ≠ 0) :
    0 < magnitude b := by
  apply Nat.pos_of_ne_zero
  intro hzero
  apply h
  rw [signedUnits, hzero, units_zero, Int.natCast_zero, Sign.apply_zero]

/-- A nonzero number has one encoding. -/
theorem eq_of_signedUnits {b b' : BitVec spec.numBits} (h : signedUnits b = signedUnits b')
    (hne : signedUnits b ≠ 0) : b = b' := by
  have hb := magnitude_pos_of_signedUnits hne
  have hb' := magnitude_pos_of_signedUnits (h ▸ hne)
  obtain ⟨hsign, hunits⟩ := Sign.apply_inj (units_pos hb) h
  apply eq_of_magnitude hsign
  rw [← place_units hb, hunits, place_units hb']

theorem IsWhole.signedUnits_ne_zero {b : BitVec spec.numBits} {z : Int} (h : IsWhole b z)
    (hz : z ≠ 0) : signedUnits b ≠ 0 := by
  rw [h.units_eq]
  exact Int.mul_ne_zero hz (Int.natCast_ne_zero.2 (Nat.ne_of_gt (Nat.two_pow_pos _)))

theorem IsWhole.unique {b b' : BitVec spec.numBits} {z : Int} (h : IsWhole b z)
    (h' : IsWhole b' z) (hz : z ≠ 0) : b = b' :=
  eq_of_signedUnits (h.units_eq.trans h'.units_eq.symm) (h.signedUnits_ne_zero hz)

include hroom in
/-- The product of whole numbers is exact up to as many bits as a significand has. -/
theorem IsWhole.mul {b b' : BitVec spec.numBits} {z w : Int} (h : IsWhole b z) (h' : IsWhole b' w)
    (hbound : (z * w).natAbs ≤ 2 ^ spec.mantissaBits) :
    IsWhole (UnpackedFloat.pack spec (UnpackedFloat.mul spec (UnpackedFloat.unpack spec b)
      (UnpackedFloat.unpack spec b'))) (z * w) := by
  have hexponent : 2 * spec.minExponent = 0 - (depth spec + depth spec : Nat) := by
    rw [minExponent_eq_neg_depth]
    push_cast
    ring
  have hproduct : signedUnits b * signedUnits b' =
      z * w * (2 ^ (depth spec + depth spec) : Nat) := by
    rw [h.units_eq, h'.units_eq, Nat.pow_add]
    push_cast
    ring
  rw [mul_unpack h.finite h'.finite, hproduct, hexponent, normalize_mul_pow]
  exact isWhole_normalize hroom hbound _

include hroom in
/-- A sum of whole numbers is exact, and a zero one is positive if it adds to no negative zero. -/
theorem IsWhole.encode_add {b : BitVec spec.numBits} {z w : Int}
    (hz : z.natAbs ≤ 2 ^ spec.mantissaBits) (h : IsWhole b w) :
    UnpackedFloat.pack spec (UnpackedFloat.add spec (UnpackedFloat.unpack spec (encode spec z))
      (UnpackedFloat.unpack spec b)) = encode spec (z + w) := by
  have hw := isWhole_encode hroom hz
  have hzero : magnitude (encode spec z) = 0 → sign (encode spec z) = .positive := by
    intro hmagnitude
    have hunits := hw.units_eq
    rw [signedUnits, hmagnitude, units_zero, Int.natCast_zero, Sign.apply_zero] at hunits
    have hpow := Nat.two_pow_pos (depth spec)
    obtain rfl : z = 0 := by
      rcases Int.mul_eq_zero.1 hunits.symm with hz | hpow
      · exact hz
      · omega
    exact sign_encode_zero
  rw [add_unpack hw.finite h.finite hzero, hw.units_eq, h.units_eq, ← Int.add_mul]
  conv_lhs => rw [minExponent_eq_neg_depth, normalize_mul_pow]
  rfl

end DenseMatmul.Rounding
