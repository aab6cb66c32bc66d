import DenseMatmul.Error
import DenseMatmul.Single
/-!
# Uniform numbers in an interval

A word of the stream gives a number in `[0, 1)` by its upper 23 bits, which are stretched by the scale
of the interval and moved to its lower end. The scale is the width of the interval, made smaller
until the largest number that can come out lies below the upper end.
-/

namespace DenseMatmul.Random

/-- A half-open interval by its lower end and its scale. -/
structure Interval where
  low : Single
  scale : Single
  deriving DecidableEq

namespace Interval

/-- The largest number in `[0, 1)` that a word gives. -/
def largestFraction : Single := ⟨0x3f7ffffe⟩

/-- The number in `[0, 1)` of a word. -/
def fraction (word : UInt32) : Single := ⟨(word >>> 9) ||| 0x3f800000⟩ - Single.one

/-- The number of a word in the interval. -/
def sample (i : Interval) (word : UInt32) : Single := fraction word * i.scale + i.low

/-- The largest scale with bits of at most `bits` that stays below the upper end. -/
def shrink (low high : Single) : Nat → Single
  | 0 => .zero
  | bits + 1 =>
    let scale : Single := ⟨UInt32.ofNat (bits + 1)⟩
    if high.atMost (largestFraction * scale + low) then shrink low high bits else scale

/-- The interval from `low` up to but not including `high`. There is none unless both are finite,
`low` is below `high`, and so is their distance finite. -/
def ofEnds (low high : Single) : Except Fault Interval :=
  let width := high - low
  if low.isFinite && high.isFinite && !high.atMost low && width.isFinite then
    .ok { low, scale := shrink low high width.bits.toNat }
  else .error .badInterval

/-- The numbers from zero up to but not including one. -/
def unit : Interval := ⟨.zero, .one⟩

theorem ofEnds_zero_one : ofEnds .zero .one = .ok unit := rfl

end Interval

end DenseMatmul.Random
