import DenseMatmul.Single
/-!
# Single precision in double precision

Every single-precision number is a double-precision number, so widening is exact. Narrowing rounds
to nearest with ties to even, over the whole range: what is too large becomes an infinity, what is
too small a subnormal number or a zero of the same sign.
-/

namespace DenseMatmul.Single

/-! ## Widening -/

/-- Double-precision bits of a positive number given by its single-precision bits. The fraction gains
29 bits and the exponent the 896 by which the biases differ. A subnormal fraction has its leading bit
moved up to the place of the hidden one. -/
def widenMagnitude (bits : UInt32) : UInt64 :=
  if 0x7f800000 < bits then 0x7ff8000000000000
  else if bits == 0x7f800000 then 0x7ff0000000000000
  else if 0x00800000 ≤ bits then (bits.toUInt64 <<< 29) + 0x3800000000000000
  else if bits == 0 then 0
  else
    let top := bits.toNat.log2
    UInt64.ofNat (((top + 874) <<< 52) + ((bits.toNat - 1 <<< top) <<< (52 - top)))

/-- The same number in double precision. -/
def toDouble (x : Single) : Float :=
  Float.ofBits (((x.bits &&& 0x80000000).toUInt64 <<< 32) ||| widenMagnitude x.magnitude)

/-! ## Narrowing -/

/-- `n / 2 ^ shift` to nearest, a tie going to the even neighbour. -/
def roundShift (n shift : Nat) : Nat :=
  let quotient := n >>> shift
  let rest := 2 * (n - quotient <<< shift)
  let unit := 1 <<< shift
  if unit < rest || (rest == unit && quotient % 2 == 1) then quotient + 1 else quotient

/-- Single-precision bits of a positive number given by its double-precision bits. The hidden bit
of the rounded significand carries into the exponent, so a fraction that rounds up to the next power
of two needs no case of its own. -/
def narrowMagnitude (bits : UInt64) : UInt32 :=
  if 0x7ff0000000000000 < bits then 0x7fc00000
  else
    let exponent := (bits >>> 52).toNat
    let fraction := (bits &&& 0x000fffffffffffff).toNat
    let rounded :=
      if exponent == 0 then 0
      else if exponent < 897 then roundShift (0x10000000000000 + fraction) (926 - exponent)
      else ((exponent - 897) <<< 23) + roundShift (0x10000000000000 + fraction) 29
    UInt32.ofNat (min rounded 0x7f800000)

/-- The nearest single-precision number. -/
def ofDouble (v : Float) : Single :=
  let bits := v.toBits
  ⟨((bits >>> 63).toUInt32 <<< 31) ||| narrowMagnitude (bits &&& 0x7fffffffffffffff)⟩

end DenseMatmul.Single
