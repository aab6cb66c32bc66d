/-!
# Settings

The two texts that can choose a kernel from outside, and the names they are looked up by.
-/

namespace DenseMatmul

inductive Setting where
  | variant
  | threads
  deriving DecidableEq

def Setting.name : Setting → String
  | .variant => "MM_KERNEL_VARIANT"
  | .threads => "MM_KERNEL_THREADS"

end DenseMatmul
