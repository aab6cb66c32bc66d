/-!
# Decimals

A decimal is a whole number of tenths, tens, or any other power of ten. It is written plainly, with
as many zeros as it takes, or in scientific notation with one digit before the point.
-/

namespace DenseMatmul

/-- The number `digits * 10 ^ exponent`. -/
structure Decimal where
  digits : Nat
  exponent : Int
  deriving DecidableEq, Repr

namespace Decimal

/-- The digits from the leading one on. -/
def characters (d : Decimal) : List Char := Nat.toDigits 10 d.digits

def zeros (n : Nat) : List Char := .replicate n '0'

/-- Plain notation: without a point if the number is whole, else with at least one digit before it. -/
def plain (d : Decimal) : List Char :=
  let cs := d.characters
  if 0 ≤ d.exponent then cs ++ zeros d.exponent.toNat
  else
    let places := (-d.exponent).toNat
    if places < cs.length then
      cs.take (cs.length - places) ++ '.' :: cs.drop (cs.length - places)
    else '0' :: '.' :: zeros (places - cs.length) ++ cs

/-- The exponent of the leading digit. -/
def magnitude (d : Decimal) : Int := d.exponent + d.characters.length - 1

/-- Scientific notation: no point after a single digit, no sign on a positive exponent. -/
def scientific (d : Decimal) : List Char :=
  let mantissa := match d.characters with
    | [] => []
    | [c] => [c]
    | c :: rest => c :: '.' :: rest
  mantissa ++ 'e' :: (toString d.magnitude).toList

end Decimal

end DenseMatmul
