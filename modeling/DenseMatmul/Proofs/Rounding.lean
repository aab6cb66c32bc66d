import Mathlib
import DenseMatmul.Single.Double
/-!
# Rounding

A positive number `m * 2 ^ e` is rounded to the nearest whole number of units, where the unit is the
last bit the format keeps of a number of that size. This module turns the shifts that round into
that one division, and shows what the other proofs need of it: the result depends on the number
alone and not on how it is split into `m` and `e`, and it grows with the number.
-/

namespace DenseMatmul.Rounding

open Float.Model Float.Model.UnpackedFloat
open Single (roundShift)

/-! ## One division -/

theorem roundShift_eq (n shift : Nat) :
    roundShift n shift =
      if 2 ^ shift < 2 * (n % 2 ^ shift) ∨ 2 * (n % 2 ^ shift) = 2 ^ shift ∧ n / 2 ^ shift % 2 = 1 then
        n / 2 ^ shift + 1
      else n / 2 ^ shift := by
  have hrest : n - n / 2 ^ shift * 2 ^ shift = n % 2 ^ shift := by
    rw [Nat.mul_comm]
    have := Nat.div_add_mod n (2 ^ shift)
    omega
  simp only [roundShift, Nat.shiftRight_eq_div_pow, Nat.shiftLeft_eq, hrest, Nat.one_mul,
    Bool.or_eq_true, Bool.and_eq_true, decide_eq_true_eq, beq_iff_eq]

theorem div_le_roundShift (n shift : Nat) : n / 2 ^ shift ≤ roundShift n shift := by
  rw [roundShift_eq]
  split <;> omega

theorem roundShift_le (n shift : Nat) : roundShift n shift ≤ n / 2 ^ shift + 1 := by
  rw [roundShift_eq]
  split <;> omega

theorem roundShift_mono {n n' : Nat} (shift : Nat) (h : n ≤ n') :
    roundShift n shift ≤ roundShift n' shift := by
  rcases Nat.lt_or_eq_of_le (Nat.div_le_div_right (c := 2 ^ shift) h) with hlt | heq
  · have hle := roundShift_le n shift
    have hge := div_le_roundShift n' shift
    omega
  · have hdiv := Nat.div_add_mod n (2 ^ shift)
    have hdiv' := Nat.div_add_mod n' (2 ^ shift)
    rw [heq] at hdiv
    rw [roundShift_eq, roundShift_eq, heq]
    split <;> split <;> omega

theorem roundShift_mul_pow (n shift j : Nat) :
    roundShift (n * 2 ^ j) (shift + j) = roundShift n shift := by
  have hj : 0 < 2 ^ j := Nat.two_pow_pos j
  have hdiv : n * 2 ^ j / 2 ^ (shift + j) = n / 2 ^ shift := by
    rw [Nat.pow_add, Nat.mul_div_mul_right _ _ hj]
  have hmod : n * 2 ^ j % 2 ^ (shift + j) = n % 2 ^ shift * 2 ^ j := by
    rw [Nat.pow_add, Nat.mul_mod_mul_right]
  have hlt : 2 ^ (shift + j) < 2 * (n % 2 ^ shift * 2 ^ j) ↔ 2 ^ shift < 2 * (n % 2 ^ shift) := by
    rw [Nat.pow_add, ← Nat.mul_assoc, Nat.mul_lt_mul_right hj]
  have heq : 2 * (n % 2 ^ shift * 2 ^ j) = 2 ^ (shift + j) ↔ 2 * (n % 2 ^ shift) = 2 ^ shift := by
    rw [Nat.pow_add, ← Nat.mul_assoc, Nat.mul_right_cancel_iff hj]
  rw [roundShift_eq, roundShift_eq, hdiv, hmod]
  simp only [hlt, heq]

@[simp] theorem roundShift_zero (n : Nat) : roundShift n 0 = n := by
  rw [roundShift_eq]
  simp [Nat.mod_one]

theorem mod_two_pow_succ (m s : Nat) : m % 2 ^ (s + 1) = m % 2 ^ s + 2 ^ s * (m / 2 ^ s % 2) := by
  rw [Nat.pow_succ, Nat.mod_mul]

/-- After at least one shift: the bits left, the last bit that went, and whether one went before. -/
theorem shift_succ (m s : Nat) :
    ExtendedMantissa.ofMantissaAndAccuracy m .exact >>> (s + 1) =
      ⟨m / 2 ^ (s + 1), m / 2 ^ s % 2 != 0, m % 2 ^ s != 0⟩ := by
  induction s with
  | zero =>
    change ExtendedMantissa.shiftRightOne ⟨m, false, false⟩ = _
    simp [ExtendedMantissa.shiftRightOne, Nat.mod_one]
  | succ s ih =>
    change ExtendedMantissa.shiftRightOne
      (ExtendedMantissa.ofMantissaAndAccuracy m .exact >>> (s + 1)) = _
    have hsticky : (m / 2 ^ s % 2 != 0 || m % 2 ^ s != 0) = (m % 2 ^ (s + 1) != 0) := by
      rw [mod_two_pow_succ]
      rcases Nat.mod_two_eq_zero_or_one (m / 2 ^ s) with h | h
      · simp [h]
      · simp [h]
    rw [ih, ExtendedMantissa.shiftRightOne, hsticky, Nat.div_div_eq_div_mul, ← Nat.pow_succ]

theorem roundedMantissa_mk (m : Nat) (round sticky : Bool) :
    (ExtendedMantissa.mk m round sticky).roundedMantissa =
      if round then if sticky then m + 1 else m + m % 2 else m := by
  cases round <;> cases sticky <;> rfl

/-- Shifting a significand and rounding what is left rounds its quotient. -/
theorem roundedMantissa_shift (m s : Nat) :
    (ExtendedMantissa.ofMantissaAndAccuracy m .exact >>> s).roundedMantissa = roundShift m s := by
  cases s with
  | zero => rw [roundShift_zero]; rfl
  | succ s =>
    have hlt : m % 2 ^ s < 2 ^ s := Nat.mod_lt _ (Nat.two_pow_pos s)
    rw [shift_succ, roundedMantissa_mk, roundShift_eq, mod_two_pow_succ]
    generalize m / 2 ^ (s + 1) = quotient
    rw [Nat.pow_succ]
    rcases Nat.mod_two_eq_zero_or_one (m / 2 ^ s) with h | h
    · -- The last bit that went is zero, so less than half of a unit went.
      rw [h, Nat.mul_zero, Nat.add_zero]
      simp only [bne_self_eq_false, Bool.false_eq_true, if_false]
      rw [if_neg (by omega)]
    · rw [h, Nat.mul_one]
      simp only [Nat.one_ne_zero, bne_iff_ne, ne_eq, not_false_eq_true, if_true]
      rcases Nat.eq_zero_or_pos (m % 2 ^ s) with hz | hz
      · -- It is one and stands alone: a tie, which goes to the even neighbour.
        rw [hz, if_neg (by simp)]
        rcases Nat.mod_two_eq_zero_or_one quotient with hq | hq
        · rw [if_neg (by omega), hq, Nat.add_zero]
        · rw [if_pos (by omega), hq]
      · rw [if_pos (by omega), if_pos (by omega)]

/-! ## Rounding to a format -/

/-- The whole number nearest to `m * 2 ^ d`. -/
def nearest (m : Nat) (d : Int) : Nat := roundShift (m * 2 ^ d.toNat) (-d).toNat

theorem nearest_mono {m m' : Nat} (d : Int) (h : m ≤ m') : nearest m d ≤ nearest m' d :=
  roundShift_mono _ (Nat.mul_le_mul_right _ h)

theorem nearest_mul_pow (m j : Nat) (d : Int) : nearest (m * 2 ^ j) (d - j) = nearest m d := by
  -- Both quotients are the one of `m`, with `c` more factors of two above and below.
  obtain ⟨c, hup, hdown⟩ : ∃ c, j + (d - j).toNat = d.toNat + c ∧
      (-(d - j)).toNat = (-d).toNat + c := ⟨(-(d - j)).toNat - (-d).toNat, by omega, by omega⟩
  rw [nearest, nearest, Nat.mul_assoc, ← Nat.pow_add, hup, hdown, Nat.pow_add, ← Nat.mul_assoc,
    roundShift_mul_pow]

variable (spec : Format)

theorem two_pow_mantissaBits :
    2 ^ spec.mantissaBits = 2 * 2 ^ spec.mantissaBitsWithoutImplicit := by
  rw [Format.mantissaBits, Nat.pow_add, Nat.pow_one]

/-- The exponent of the last bit that is kept of `m * 2 ^ e`. -/
def unitExponent (m : Nat) (e : Int) : Int := spec.targetExponent (totalExponent m e)

theorem minExponent_le (m : Nat) (e : Int) : spec.minExponent ≤ unitExponent spec m e := by
  unfold unitExponent Format.targetExponent
  omega

theorem log2_mul_pow {m : Nat} (hm : 0 < m) (j : Nat) : (m * 2 ^ j).log2 = m.log2 + j := by
  have hpos : 0 < 2 ^ j := Nat.two_pow_pos j
  refine (Nat.log2_eq_iff (Nat.ne_of_gt (Nat.mul_pos hm hpos))).2 ⟨?_, ?_⟩
  · rw [Nat.pow_add]
    exact Nat.mul_le_mul_right _ (Nat.log2_self_le (Nat.ne_of_gt hm))
  · rw [Nat.add_right_comm, Nat.pow_add, Nat.mul_lt_mul_right hpos]
    exact Nat.lt_log2_self

theorem unitExponent_mul_pow {m : Nat} (hm : 0 < m) (e : Int) (j : Nat) :
    unitExponent spec (m * 2 ^ j) (e - j) = unitExponent spec m e := by
  unfold unitExponent totalExponent
  rw [log2_mul_pow hm]
  congr 1
  push_cast
  omega

/-- The float of `r * 2 ^ t`, where `r` may be one unit too large to be a significand. -/
def settle (s : Sign) (r : Nat) (t : Int) : UnpackedFloat :=
  if h : r = 0 then .zero s
  else if r = 2 ^ spec.mantissaBits then
    .finite s (2 ^ spec.mantissaBitsWithoutImplicit) (t + 1) (Nat.two_pow_pos _)
  else .finite s r t (Nat.pos_of_ne_zero h)

theorem nearest_le (m : Nat) (e : Int) :
    nearest m (e - unitExponent spec m e) ≤ 2 ^ spec.mantissaBits := by
  have hle := roundShift_le (m * 2 ^ (e - unitExponent spec m e).toNat)
    (-(e - unitExponent spec m e)).toNat
  refine Nat.le_trans hle (Nat.div_lt_of_lt_mul ?_)
  rw [← Nat.pow_add]
  refine Nat.lt_of_lt_of_le (m := 2 ^ (m.log2 + 1 + (e - unitExponent spec m e).toNat)) ?_ ?_
  · rw [Nat.pow_add, Nat.mul_lt_mul_right (Nat.two_pow_pos _)]
    exact Nat.lt_log2_self
  · refine Nat.pow_le_pow_right Nat.two_pos ?_
    simp only [unitExponent, Format.targetExponent, totalExponent]
    omega

variable {spec}

/-- Above the smallest exponent all bits of a significand are used. -/
theorem le_nearest {m : Nat} (hm : 0 < m) {e : Int}
    (ht : unitExponent spec m e ≠ spec.minExponent) :
    2 ^ spec.mantissaBitsWithoutImplicit ≤ nearest m (e - unitExponent spec m e) := by
  refine Nat.le_trans ?_ (div_le_roundShift _ _)
  rw [Nat.le_div_iff_mul_le (Nat.two_pow_pos _), ← Nat.pow_add]
  refine Nat.le_trans (m := 2 ^ (m.log2 + (e - unitExponent spec m e).toNat)) ?_ ?_
  · refine Nat.pow_le_pow_right Nat.two_pos ?_
    simp only [unitExponent, Format.targetExponent, totalExponent, Format.mantissaBits] at ht ⊢
    omega
  · rw [Nat.pow_add]
    exact Nat.mul_le_mul_right _ (Nat.log2_self_le (Nat.ne_of_gt hm))

theorem unitExponent_of_lt {r : Nat} {t : Int} (hr : r < 2 ^ spec.mantissaBits)
    (ht : spec.minExponent ≤ t) : unitExponent spec r t ≤ t := by
  have hlog : r.log2 < spec.mantissaBits := by
    rcases Nat.eq_zero_or_pos r with rfl | hpos
    · rw [Nat.log2_zero, Format.mantissaBits]
      omega
    · exact (Nat.log2_lt (Nat.ne_of_gt hpos)).2 hr
  simp only [unitExponent, Format.targetExponent, totalExponent]
  omega

theorem unitExponent_two_pow {t : Int} (ht : spec.minExponent ≤ t) :
    unitExponent spec (2 ^ spec.mantissaBits) t = t + 1 := by
  simp only [unitExponent, Format.targetExponent, totalExponent, Nat.log2_two_pow]
  omega

theorem shiftToTargetExponent_eq (m : Nat) (e : Int) :
    shiftToTargetExponent spec m e .exact =
      (ExtendedMantissa.ofMantissaAndAccuracy m .exact >>> (unitExponent spec m e - e).toNat,
        e + ((unitExponent spec m e - e).toNat : Int)) := rfl

/-- A significand that fits is shifted no further, and one that is too large by one place. -/
theorem shift_again {r : Nat} {t : Int} (hr : r ≤ 2 ^ spec.mantissaBits)
    (ht : spec.minExponent ≤ t) :
    shiftToTargetExponent spec r t .exact =
      if r = 2 ^ spec.mantissaBits then
        (⟨2 ^ spec.mantissaBitsWithoutImplicit, false, false⟩, t + 1)
      else (⟨r, false, false⟩, t) := by
  split
  case isTrue h =>
    have hone : (unitExponent spec (2 ^ spec.mantissaBits) t - t).toNat = 0 + 1 := by
      rw [unitExponent_two_pow ht]
      omega
    rw [h, shiftToTargetExponent_eq, hone, shift_succ, Format.mantissaBits, Nat.add_comm 1]
    simp [Nat.pow_succ, Nat.mod_one]
  case isFalse h =>
    have hnone : (unitExponent spec r t - t).toNat = 0 := by
      have := unitExponent_of_lt (Nat.lt_of_le_of_ne hr h) ht
      omega
    rw [shiftToTargetExponent_eq, hnone, Int.natCast_zero, Int.add_zero]
    rfl

theorem roundWithAccuracy_eq (s : Sign) {m : Nat} {e : Int} (he : e ≤ unitExponent spec m e) :
    roundWithAccuracy spec s m e .exact =
      settle spec s (nearest m (e - unitExponent spec m e)) (unitExponent spec m e) := by
  have hexponent : e + ((unitExponent spec m e - e).toNat : Int) = unitExponent spec m e := by omega
  have hnearest : roundShift m (unitExponent spec m e - e).toNat =
      nearest m (e - unitExponent spec m e) := by
    have hup : (e - unitExponent spec m e).toNat = 0 := by omega
    rw [nearest, hup, Nat.pow_zero, Nat.mul_one, Int.neg_sub]
  unfold roundWithAccuracy settle
  simp only [shiftToTargetExponent_eq m e, hexponent, roundedMantissa_shift, hnearest,
    shift_again (nearest_le spec m e) (minExponent_le spec m e)]
  by_cases hr : nearest m (e - unitExponent spec m e) = 2 ^ spec.mantissaBits
  · have hpos := Nat.ne_of_gt (Nat.two_pow_pos spec.mantissaBits)
    have hhalf := Nat.ne_of_gt (Nat.two_pow_pos spec.mantissaBitsWithoutImplicit)
    simp only [hr, if_true, dif_neg hpos, dif_neg hhalf]
  · simp only [hr, if_false]

/-- Rounding keeps the nearest whole number of units. -/
theorem round_eq (s : Sign) {m : Nat} (hm : 0 < m) (e : Int) :
    UnpackedFloat.round spec s m e =
      settle spec s (nearest m (e - unitExponent spec m e)) (unitExponent spec m e) := by
  -- The exponent is brought down first, which changes neither the unit nor the nearest number.
  have hunit := unitExponent_mul_pow spec hm e (e - unitExponent spec m e).toNat
  have hlow : e - ((e - unitExponent spec m e).toNat : Int) ≤
      unitExponent spec (m * 2 ^ (e - unitExponent spec m e).toNat)
        (e - ((e - unitExponent spec m e).toNat : Int)) := by omega
  have hround := roundWithAccuracy_eq s hlow
  have hswap : e - ((e - unitExponent spec m e).toNat : Int) - unitExponent spec m e =
      e - unitExponent spec m e - ((e - unitExponent spec m e).toNat : Int) := by omega
  rw [hunit, hswap, nearest_mul_pow] at hround
  simpa only [UnpackedFloat.round, decreaseExponent, Nat.shiftLeft_eq,
    unitExponent] using hround

/-! ## Places -/

variable (spec) in
/-- The place of `m * 2 ^ e` on the line of the numbers of one sign, for a significand that fits. -/
def rank (m : Nat) (e : Int) : Nat :=
  (e - spec.minExponent).toNat * 2 ^ spec.mantissaBitsWithoutImplicit + m

variable (spec) in
/-- The place of the rounded `m * 2 ^ e`, on a line that goes on past the infinities. -/
def place (m : Nat) (e : Int) : Nat :=
  rank spec (nearest m (e - unitExponent spec m e)) (unitExponent spec m e)

theorem place_mul_pow {m : Nat} (hm : 0 < m) (j : Nat) (e : Int) :
    place spec (m * 2 ^ j) (e - j) = place spec m e := by
  have hswap : e - j - unitExponent spec m e = e - unitExponent spec m e - j := by omega
  rw [place, place, unitExponent_mul_pow spec hm, hswap, nearest_mul_pow]

theorem log2_mono {m m' : Nat} (h : m ≤ m') : m.log2 ≤ m'.log2 := by
  rcases Nat.eq_zero_or_pos m with rfl | hm
  · rw [Nat.log2_zero]
    exact Nat.zero_le _
  · rw [Nat.le_log2 (by omega)]
    exact Nat.le_trans (Nat.log2_self_le (Nat.ne_of_gt hm)) h

variable (spec) in
theorem unitExponent_mono {m m' : Nat} (e : Int) (h : m ≤ m') :
    unitExponent spec m e ≤ unitExponent spec m' e := by
  have hlog := log2_mono h
  simp only [unitExponent, Format.targetExponent, totalExponent]
  omega

/-- Rounding keeps order: a larger number has no earlier place. -/
theorem place_mono {m m' : Nat} (e : Int) (h : m ≤ m') : place spec m e ≤ place spec m' e := by
  unfold place rank
  rcases Int.lt_or_eq_of_le (unitExponent_mono spec e h) with hlt | heq
  · -- The larger number has the larger unit, and fills its significand up to the hidden bit.
    have hm' : 0 < m' := by
      rcases Nat.eq_zero_or_pos m' with rfl | hpos
      · rw [Nat.le_zero.1 h] at hlt
        exact absurd hlt (Int.lt_irrefl _)
      · exact hpos
    have hlow := minExponent_le spec m e
    have hfull : 2 ^ spec.mantissaBitsWithoutImplicit ≤ nearest m' (e - unitExponent spec m' e) :=
      le_nearest hm' (by omega)
    have hfits := nearest_le spec m e
    rw [two_pow_mantissaBits] at hfits
    have hstep : (unitExponent spec m e - spec.minExponent).toNat + 1 ≤
        (unitExponent spec m' e - spec.minExponent).toNat := by omega
    have hscaled := Nat.mul_le_mul_right (2 ^ spec.mantissaBitsWithoutImplicit) hstep
    rw [Nat.add_mul, Nat.one_mul] at hscaled
    omega
  · rw [heq]
    exact Nat.add_le_add_left (nearest_mono _ h) _

end DenseMatmul.Rounding
