import DenseMatmul.Decimal.Shortest
/-!
# Numbers as text

A number is written as the shortest decimal that reads back, with the sign of a zero kept. A NaN has
no sign.
-/

namespace DenseMatmul.Single

/-- Writes the special numbers, and the others by `layout`. -/
def textWith (layout : Decimal → List Char) (x : Single) : String :=
  if x.isNaN then "NaN"
  else
    let sign := if x.isNegative then "-" else ""
    if x.isInfinite then sign ++ "inf"
    else if x.magnitude = 0 then sign ++ String.ofList (layout ⟨0, 0⟩)
    else sign ++ String.ofList (layout (Decimal.shortest x.magnitude.toNat))

/-- Plain notation, however many zeros it takes. -/
def plainText (x : Single) : String := x.textWith Decimal.plain

/-- Scientific notation. -/
def scientificText (x : Single) : String := x.textWith Decimal.scientific

end DenseMatmul.Single
