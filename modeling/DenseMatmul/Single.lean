/-!
# Single-precision numbers

A number is held by its 32 bits, so that copies and stores keep the sign and the payload of every
NaN. Sums, differences and products round to nearest with ties to even, and one that is not a number
is the canonical NaN `0x7fc00000`.

Order and equality are those of the reals on numbers, with the two zeros equal. A NaN is neither
equal to nor ordered with anything, itself included; `=` compares the bits instead.
-/

namespace DenseMatmul

/-- A single-precision number: sign bit, eight bits of exponent, 23 bits of fraction. -/
structure Single where
  bits : UInt32
  deriving DecidableEq, Inhabited

namespace Single

/-- Positive zero. -/
def zero : Single := ⟨0x00000000⟩

def one : Single := ⟨0x3f800000⟩

def nan : Single := ⟨0x7fc00000⟩

def infinity : Single := ⟨0x7f800000⟩

/-! ## Classes -/

/-- The bits below the sign: they grow with the absolute value. -/
def magnitude (x : Single) : UInt32 := x.bits &&& 0x7fffffff

def isNegative (x : Single) : Bool := x.bits &&& 0x80000000 != 0

def isNaN (x : Single) : Bool := 0x7f800000 < x.magnitude

def isInfinite (x : Single) : Bool := x.magnitude == 0x7f800000

def isFinite (x : Single) : Bool := x.magnitude < 0x7f800000

/-! ## Arithmetic -/

/-- The number in the form arithmetic works on. -/
def value (x : Single) : Float32 := Float32.ofBits x.bits

def ofValue (v : Float32) : Single := ⟨v.toBits⟩

instance : Add Single := ⟨fun x y => ofValue (x.value + y.value)⟩

instance : Sub Single := ⟨fun x y => ofValue (x.value - y.value)⟩

instance : Mul Single := ⟨fun x y => ofValue (x.value * y.value)⟩

/-- Clears the sign, of a NaN too. -/
def abs (x : Single) : Single := ⟨x.magnitude⟩

/-! ## Comparison -/

/-- Place on the line of numbers: the magnitude with the sign, so that both zeros share one place. -/
def place (x : Single) : Int :=
  if x.isNegative then -(x.magnitude.toNat : Int) else x.magnitude.toNat

def equal (x y : Single) : Bool := !x.isNaN && !y.isNaN && x.place == y.place

def atMost (x y : Single) : Bool := !x.isNaN && !y.isNaN && x.place ≤ y.place

/-- The larger number; a NaN gives way to the other operand. -/
def max (x y : Single) : Single :=
  if x.isNaN then y
  else if y.isNaN then x
  else if x.atMost y then y else x

end Single

end DenseMatmul
