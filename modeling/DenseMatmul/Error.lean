import DenseMatmul.Setting
import DenseMatmul.Text.Numeral
import DenseMatmul.Text.Quoted
/-!
# Errors and faults

An error is an answer: the call turns its arguments down, names the cause and leaves every buffer as
it was. A fault is the end of a call without an answer, because a promise of the caller or of a
kernel was broken. Each cause is a constructor, and its wording is in one place.
-/

namespace DenseMatmul

/-- A buffer that a length check can name. -/
inductive Operand where
  | a
  | b
  | c
  | view
  deriving DecidableEq

def Operand.name : Operand → String
  | .a => "A"
  | .b => "B"
  | .c => "C"
  | .view => "view"

/-- An extent of a product: `m` and `n` are the rows and columns of the output, `k` is summed over. -/
inductive Axis where
  | m
  | n
  | k
  deriving DecidableEq

def Axis.name : Axis → String
  | .m => "M"
  | .n => "N"
  | .k => "K"

/-! ## Errors -/

/-- What is wrong with an argument that is not a length. -/
inductive ArgumentError where
  | negativeExtent (axis : Axis) (value : Int)
  | dataLength (length rows cols : Nat)
  | raggedRow (row length expected : Nat)
  | unknownVariant (name : String)
  | badThreadCount (text : String) (cause : Text.NumeralError)
  | zeroThreads
  | custom (reason : String)
  deriving DecidableEq

def ArgumentError.message : ArgumentError → String
  | .negativeExtent axis value => s!"{axis.name} must be non-negative, got {value}"
  | .dataLength length rows cols =>
    s!"data length {length} does not match {rows}x{cols} (expected {rows * cols})"
  | .raggedRow row length expected => s!"row {row} has {length} columns, expected {expected}"
  | .unknownVariant name => s!"unknown kernel variant '{name}'"
  | .badThreadCount text cause =>
    s!"{Setting.threads.name}={String.ofList (Text.quote text.toList)}: {cause.message}"
  | .zeroThreads => s!"{Setting.threads.name} must be at least 1"
  | .custom reason => reason

/-- Why a product or a matrix was refused. -/
inductive MatmulError where
  | bufferTooShort (buffer : Operand) (required got : Nat)
  | dimensionOverflow (rows cols : Nat)
  | innerMismatch (m k k2 n : Nat)
  | invalidArgument (cause : ArgumentError)
  deriving DecidableEq

def MatmulError.message : MatmulError → String
  | .bufferTooShort buffer required got =>
    s!"buffer {buffer.name} too short: need {required} elements, got {got}"
  | .dimensionOverflow rows cols =>
    s!"dimension overflow: {rows}x{cols} elements do not fit in usize"
  | .innerMismatch m k k2 n => s!"matmul dimension mismatch: [{m}x{k}] @ [{k2}x{n}]"
  | .invalidArgument cause => s!"invalid argument: {cause.message}"

/-! ## Faults -/

/-- Why a call stopped without an answer. -/
inductive Fault where
  /-- An element was asked for outside the rows and columns of a matrix. -/
  | indexOutOfRange (row col : Nat)
  /-- The unchecked product got a buffer shorter than its extents need. -/
  | operandTooShort (operand : Operand) (required got : Nat)
  /-- A product or sum of words is no word. -/
  | wordOverflow
  /-- An element or a slice lies past the end of a buffer. -/
  | pastEnd
  /-- There is no uniform distribution between the two ends given. -/
  | badInterval
  /-- A product was to be cut into bands of no elements. -/
  | emptyBand
  /-- A band of a split product stopped. -/
  | bandHalted
  /-- A kernel stopped of its own accord. -/
  | deliberate
  /-- A matrix was asked for by a name that no matrix has. -/
  | unknownMatrix (name : String)
  deriving DecidableEq

/-- The wording of a fault, where it has one. -/
def Fault.message? : Fault → Option String
  | .indexOutOfRange row col => some s!"index ({row}, {col}) out of range"
  | .operandTooShort operand required got =>
    some s!"{operand.name}: need {required} elements, got {got}"
  | _ => none

/-- A call without a result: an error as its answer, or a fault. -/
inductive Failure (ε : Type) where
  | refused (error : ε)
  | halted (fault : Fault)
  deriving DecidableEq

def Failure.map {ε δ : Type} (f : ε → δ) : Failure ε → Failure δ
  | .refused error => .refused (f error)
  | .halted fault => .halted fault

end DenseMatmul
