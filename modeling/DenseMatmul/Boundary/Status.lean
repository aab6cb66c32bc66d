import DenseMatmul.Error
/-!
# Statuses and messages at the boundary

Callers from outside get a status code, and a message to ask for later. What the caller did wrong has
one status; what cannot be its fault has the other.
-/

namespace DenseMatmul.Boundary

inductive Status where
  | ok
  | invalidArgument
  | internal
  deriving DecidableEq

def Status.code : Status → Nat
  | .ok => 0
  | .invalidArgument => 1
  | .internal => 2

/-- An operand passed by address. -/
inductive Pointer where
  | a
  | b
  | c
  deriving DecidableEq

def Pointer.name : Pointer → String
  | .a => "a"
  | .b => "b"
  | .c => "c"

/-- Why a call at the boundary failed. -/
inductive CallError where
  | refused (error : MatmulError)
  | nullBuffer (pointer : Pointer)
  | nullOutput
  | nullKernel
  /-- A dimension has no place in a signed 32-bit integer. -/
  | wideDimension (value : Nat)
  /-- The call met a fault. -/
  | halted
  deriving DecidableEq

namespace CallError

def status : CallError → Status
  | .refused _ => .invalidArgument
  | .nullBuffer _ => .invalidArgument
  | .nullOutput => .invalidArgument
  | .nullKernel => .invalidArgument
  | .wideDimension _ => .internal
  | .halted => .internal

def message : CallError → String
  | .refused error => error.message
  | .nullBuffer pointer => s!"{pointer.name} is null"
  | .nullOutput => "kernel_out is null"
  | .nullKernel => "kernel is null"
  | .wideDimension value => s!"dimension {value} does not fit in i32"
  | .halted => "internal panic"

/-- A fault ends at the boundary and becomes an error. -/
def ofFailure : Failure CallError → CallError
  | .refused error => error
  | .halted _ => .halted

end CallError

end DenseMatmul.Boundary
