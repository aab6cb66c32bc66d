import DenseMatmul.Proofs.WholeNumbers
/-!
# Order of single-precision numbers

A number comes at most where another does if its place does, and a NaN has no place. Multiplication by
a positive finite number keeps this order (`mul_atMost`), over zeros of both signs, subnormal numbers,
products too large for a number, and infinities alike: the magnitude of the product is a growing
function of that of the other factor.
-/

namespace DenseMatmul

open Float.Model Float.Model.UnpackedFloat

namespace Rounding

variable {spec : Format} {b b' : BitVec spec.numBits}

variable (spec) in
/-- The magnitude of a product with a number of magnitude `g`, by the magnitude of the other factor. -/
def productMagnitude (g other : Nat) : Nat :=
  if limit spec ≤ other then limit spec
  else min (place spec (units spec g * units spec other) (2 * spec.minExponent)) (limit spec)

theorem productMagnitude_le (g other : Nat) : productMagnitude spec g other ≤ limit spec := by
  unfold productMagnitude
  split
  · exact le_rfl
  · exact min_le_right _ _

/-- A larger factor makes no smaller a product. -/
theorem productMagnitude_mono (g : Nat) : Monotone (productMagnitude spec g) := by
  intro other other' h
  by_cases hinf : limit spec ≤ other'
  · exact (productMagnitude_le g other).trans_eq (if_pos hinf).symm
  · rw [productMagnitude, productMagnitude, if_neg hinf, if_neg fun hle => hinf (hle.trans h)]
    exact min_le_min_right _ (place_mono _ (Nat.mul_le_mul_left _ (units_mono h)))

theorem place_zero {e : Int} (he : e + 1 ≤ spec.minExponent + spec.mantissaBits) :
    place spec 0 e = 0 := by
  have hunit : unitExponent spec 0 e = spec.minExponent := by
    simp only [unitExponent, Format.targetExponent, totalExponent, Nat.log2_zero]
    omega
  simp [place, rank, hunit, nearest, roundShift_eq]

@[simp] theorem productMagnitude_zero (g : Nat) : productMagnitude spec g 0 = 0 := by
  have hzero : spec.minExponent ≤ 0 := minExponent_nonpos
  have hbits : 1 ≤ spec.mantissaBits := Nat.le_add_right _ _
  rw [productMagnitude, if_neg (Nat.not_le.2 limit_pos), units_zero, Nat.mul_zero,
    place_zero (by omega), Nat.zero_min]

/-- The product with a finite number other than zero, by sign and magnitude. -/
theorem mul_by_finite (heb : 2 ≤ spec.exponentBits) (hpos : 0 < magnitude b)
    (hb : magnitude b < limit spec) (hb' : magnitude b' ≤ limit spec) :
    let product := UnpackedFloat.pack spec (UnpackedFloat.mul spec (UnpackedFloat.unpack spec b)
      (UnpackedFloat.unpack spec b'))
    sign product = sign b * sign b' ∧
      magnitude product = productMagnitude spec (magnitude b) (magnitude b') := by
  intro product
  rcases Nat.lt_or_eq_of_le hb' with hlt | hinf
  · have hproduct : product = UnpackedFloat.pack spec (UnpackedFloat.normalize spec
        (signedUnits b * signedUnits b') (2 * spec.minExponent) (sign b * sign b')) :=
      congrArg (UnpackedFloat.pack spec) (mul_unpack hb hlt)
    rw [signedUnits, signedUnits, Sign.apply_mul_apply, ← Int.natCast_mul] at hproduct
    rcases Nat.eq_zero_or_pos (magnitude b') with hzero | hpos'
    · rw [hzero, units_zero, Nat.mul_zero, Int.natCast_zero, Sign.apply_zero,
        normalize_zero] at hproduct
      rw [hproduct, hzero, productMagnitude_zero]
      exact ⟨sign_pack_zero _, magnitude_pack_zero _⟩
    · have hunits : 0 < units spec (magnitude b) * units spec (magnitude b') :=
        Nat.mul_pos (units_pos hpos) (units_pos hpos')
      rw [normalize_apply _ _ hunits] at hproduct
      rw [hproduct, productMagnitude, if_neg (Nat.not_le.2 hlt)]
      exact ⟨sign_pack_round _ hunits _, magnitude_pack_round _ hunits _ heb⟩
  · have hproduct : product = UnpackedFloat.pack spec (.infinity (sign b * sign b')) := by
      simp only [product, unpack_finite hpos hb, unpack_infinity hinf]
      rfl
    rw [hproduct, productMagnitude, if_pos hinf.ge]
    exact ⟨sign_pack_infinity _, magnitude_pack_infinity _⟩

/-- A growing function of magnitudes that fixes zero keeps the order of signed magnitudes. -/
theorem Sign.apply_le_apply {f : Nat → Nat} (hf : Monotone f) (hzero : f 0 = 0) {s s' : Sign}
    {m m' : Nat} (h : s.apply m ≤ s'.apply m') : s.apply (f m) ≤ s'.apply (f m') := by
  cases s <;> cases s' <;> simp only [Sign.apply] at h ⊢
  · have := hf (show m' ≤ m by omega)
    omega
  · omega
  · -- A positive magnitude below a negative one: both are zero.
    obtain ⟨rfl, rfl⟩ : m = 0 ∧ m' = 0 := by omega
    simp [hzero]
  · have := hf (show m ≤ m' by omega)
    omega

end Rounding

namespace Single

variable {x y z g : Single}

theorem place_eq (x : Single) : x.place = (Rounding.sign x.raw).apply (Rounding.magnitude x.raw) := by
  rw [place, sign_raw, magnitude_raw]
  split <;> rfl

theorem isFinite_of_not {x : Single} (hnan : x.isNaN = false) (hinfinite : x.isInfinite = false) :
    x.isFinite := by
  rw [← Bool.not_eq_true, isNaN_iff] at hnan
  have hne : x.magnitude.toNat ≠ 0x7f800000 := by
    intro heq
    simp [isInfinite, ← UInt32.toNat_inj, heq] at hinfinite
  exact (isFinite_iff x).2 (by omega)

theorem isNaN_of_isFinite {x : Single} (h : x.isFinite) : x.isNaN = false := by
  rw [isFinite_iff] at h
  rw [← Bool.not_eq_true, isNaN_iff]
  omega

/-! ## Absolute values -/

theorem magnitude_lt (x : Single) : x.magnitude.toNat < 2 ^ 31 := by
  rw [← magnitude_raw]
  exact Nat.mod_lt _ (Nat.two_pow_pos _)

theorem magnitude_abs (x : Single) : x.abs.magnitude = x.magnitude := by
  apply UInt32.toNat_inj.1
  rw [← magnitude_raw x.abs]
  exact Nat.mod_eq_of_lt x.magnitude_lt

theorem isNegative_abs (x : Single) : x.abs.isNegative = false := by
  rw [isNegative_eq, decide_eq_false_iff_not]
  exact Nat.not_le.2 x.magnitude_lt

theorem place_abs (x : Single) : x.abs.place = x.magnitude.toNat := by
  rw [place, isNegative_abs, magnitude_abs]
  rfl

theorem isFinite_abs (x : Single) : x.abs.isFinite = x.isFinite := by
  rw [isFinite, isFinite, magnitude_abs]

theorem isNaN_abs (x : Single) : x.abs.isNaN = x.isNaN := by
  rw [isNaN, isNaN, magnitude_abs]

/-! ## Order -/

theorem atMost_iff : x.atMost y ↔ x.isNaN = false ∧ y.isNaN = false ∧ x.place ≤ y.place := by
  simp [atMost, and_assoc]

theorem atMost_trans (h : x.atMost y) (h' : y.atMost z) : x.atMost z := by
  obtain ⟨hx, -, hle⟩ := atMost_iff.1 h
  obtain ⟨-, hz, hle'⟩ := atMost_iff.1 h'
  exact atMost_iff.2 ⟨hx, hz, Int.le_trans hle hle'⟩

/-- Absolute values are in the order of the magnitudes. -/
theorem abs_atMost_abs_iff (hx : x.isNaN = false) (hy : y.isNaN = false) :
    x.abs.atMost y.abs ↔ x.magnitude.toNat ≤ y.magnitude.toNat := by
  rw [atMost_iff, isNaN_abs, isNaN_abs, place_abs, place_abs]
  simp [hx, hy]

/-- The product with a positive finite number is a number, in the place of its magnitude. -/
theorem place_mul (hsign : g.isNegative = false) (hpos : 0 < g.magnitude.toNat)
    (hfinite : g.isFinite) (hz : z.isNaN = false) : (g * z).isNaN = false ∧
      (g * z).place = (Rounding.sign z.raw).apply
        (Rounding.productMagnitude .binary32 g.magnitude.toNat (Rounding.magnitude z.raw)) := by
  have hz' : Rounding.magnitude z.raw ≤ 0x7f800000 := by
    rw [magnitude_raw, ← Nat.not_lt, ← isNaN_iff, hz]
    exact Bool.false_ne_true
  have hg : Rounding.magnitude g.raw < 0x7f800000 := by
    rw [magnitude_raw]
    exact (isFinite_iff g).1 hfinite
  obtain ⟨hsign', hmagnitude⟩ :=
    Rounding.mul_by_finite (b := g.raw) (by decide) (by rwa [magnitude_raw]) hg hz'
  rw [← raw_mul] at hsign' hmagnitude
  have hpositive : Rounding.sign (g * z).raw = Rounding.sign z.raw := by
    rw [hsign', sign_raw g, hsign]
    cases Rounding.sign z.raw <;> rfl
  constructor
  · rw [← Bool.not_eq_true, isNaN_iff, ← magnitude_raw, hmagnitude]
    exact Nat.not_lt.2 (Rounding.productMagnitude_le _ _)
  · rw [place_eq, hpositive, hmagnitude, magnitude_raw]

/-- Multiplication by a positive finite number keeps the order. -/
theorem mul_atMost (hsign : g.isNegative = false) (hpos : 0 < g.magnitude.toNat)
    (hfinite : g.isFinite) (h : x.atMost y) : (g * x).atMost (g * y) := by
  obtain ⟨hx, hy, hle⟩ := atMost_iff.1 h
  obtain ⟨hgx, hplace⟩ := place_mul hsign hpos hfinite hx
  obtain ⟨hgy, hplace'⟩ := place_mul hsign hpos hfinite hy
  refine atMost_iff.2 ⟨hgx, hgy, ?_⟩
  rw [place_eq, place_eq] at hle
  rw [hplace, hplace']
  exact Rounding.Sign.apply_le_apply (Rounding.productMagnitude_mono _)
    (Rounding.productMagnitude_zero _) hle

end Single

end DenseMatmul
