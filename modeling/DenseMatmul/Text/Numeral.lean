/-!
# Decimal numerals

A numeral is one or more ASCII digits after at most one plus sign; leading zeros are allowed. It is
read from the left against a limit, and the first thing wrong decides the error: a character that is
no digit, or a digit that takes the value to the limit.
-/

namespace DenseMatmul.Text

inductive NumeralError where
  | empty
  | badDigit
  | tooLarge
  deriving DecidableEq, Repr

def NumeralError.message : NumeralError → String
  | .empty => "cannot parse integer from empty string"
  | .badDigit => "invalid digit found in string"
  | .tooLarge => "number too large to fit in target type"

/-- The value of an ASCII digit. -/
def digit? (c : Char) : Option Nat :=
  if '0' ≤ c ∧ c ≤ '9' then some (c.toNat - '0'.toNat) else none

/-- Appends digits to the value read so far. -/
def readDigits (limit : Nat) : List Char → Nat → Except NumeralError Nat
  | [], value => .ok value
  | c :: rest, value =>
    match digit? c with
    | none => .error .badDigit
    | some d =>
      if 10 * value + d < limit then readDigits limit rest (10 * value + d) else .error .tooLarge

/-- Reads a numeral below `limit`. A sign alone is a bad digit, not an empty text. -/
def readNumeral (limit : Nat) : List Char → Except NumeralError Nat
  | [] => .error .empty
  | ['+'] => .error .badDigit
  | '+' :: rest => readDigits limit rest 0
  | s => readDigits limit s 0

end DenseMatmul.Text
