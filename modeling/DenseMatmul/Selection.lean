import DenseMatmul.Kernel.Banded
import DenseMatmul.Text.Blank
/-!
# Choosing a kernel

A kernel is chosen by the name of a variant and a number of threads, each of which may be left to its
default. Names are read without regard to case and surrounding blanks; the variant is read before
the number, so of two bad texts the variant is the one refused.
-/

namespace DenseMatmul

inductive Variant where
  | reference
  | rowParallel
  deriving DecidableEq

namespace Variant

def name : Variant → String
  | .reference => "reference"
  | .rowParallel => "row-parallel"

/-- The names a variant goes by, in lower case. -/
def ofName? : String → Option Variant
  | "reference" => some .reference
  | "naive" => some .reference
  | "row-parallel" => some .rowParallel
  | "row_parallel" => some .rowParallel
  | "parallel" => some .rowParallel
  | _ => none

/-- Reads a variant. Only ASCII letters have a lower case here; an unknown name is reported as it was
looked up. -/
def ofText (text : String) : Except MatmulError Variant :=
  let name := String.ofList ((Text.trim text.toList).map Char.toLower)
  match ofName? name with
  | some v => .ok v
  | none => .error (.invalidArgument (.unknownVariant name))

end Variant

/-- A variant, and the most threads it may use. -/
structure Selection where
  variant : Variant
  maxThreads : Nat
  deriving DecidableEq

namespace Selection

/-- The reference, with as many threads as the machine runs at once. -/
def standard (machineThreads : Nat) : Selection := ⟨.reference, machineThreads⟩

/-- Reads a number of threads, which is a numeral of at least one between blanks. -/
def threadsOfText (text : String) : Except MatmulError Nat :=
  match Text.readNumeral wordLimit (Text.trim text.toList) with
  | .error cause => .error (.invalidArgument (.badThreadCount text cause))
  | .ok 0 => .error (.invalidArgument .zeroThreads)
  | .ok threads => .ok threads

/-- The standard selection, changed by the settings that have a text. -/
def ofLookup (machineThreads : Nat) (lookup : Setting → Option String) :
    Except MatmulError Selection := do
  let base := standard machineThreads
  let variant ← (lookup .variant).elim (pure base.variant) Variant.ofText
  let maxThreads ← (lookup .threads).elim (pure base.maxThreads) threadsOfText
  return { variant, maxThreads }

/-- Reads the settings from bytes; those that are not UTF-8 count as absent. -/
def ofEnvironment (machineThreads : Nat) (value : Setting → Option ByteArray) :
    Except MatmulError Selection :=
  ofLookup machineThreads fun setting => (value setting).bind String.fromUTF8?

def kernel (selection : Selection) : Kernel :=
  match selection.variant with
  | .reference => .reference
  | .rowParallel => .rowParallel (.ofThreads selection.maxThreads)

/-- Builds the selected kernel. -/
def build {ε : Type} (selection : Selection) : Logged ε Kernel := do
  .emit .debug
    s!"building {selection.variant.name} kernel (max_threads={selection.maxThreads})"
  return selection.kernel

end Selection

end DenseMatmul
