import DenseMatmul.Kernel.Reference
/-!
# Kernels with a known defect

Kernels made from the reference by one change each, to try out what judges kernels: another order of
summation, an element left out, an element too many, single elements replaced, and calls that fail or
stop.
-/

namespace DenseMatmul

namespace Reference

/-! ## Summed backwards -/

/-- Adds the products from the last to the first: along a row of A from `i + count`, down a column of
B from `j + count * stride`. -/
def accumulateBack (a b : Buffer) (stride i j : Nat) : Nat → Single → Except Fault Single
  | 0, sum => .ok sum
  | count + 1, sum =>
    if hi : i + count < a.size then
      if hj : j + count * stride < b.size then
        accumulateBack a b stride i j count (sum + a[i + count] * b[j + count * stride])
      else .error .pastEnd
    else .error .pastEnd

def backSteps (s : Shape) (a b : Buffer) : List Step :=
  (List.range (s.m * s.n)).map fun cell =>
    (accumulateBack a b s.n (cell / s.n * s.k) (cell % s.n) s.k .zero).map (Store.mk cell)

def multiplyBack (s : Shape) (a b c : Buffer) : Call :=
  match s.validate a.size b.size c.size with
  | .error e => { answer := .refuse e, c }
  | .ok _ =>
    let run := Step.run (backSteps s a b) c
    { answer := .ofFault run.result, c := run.c }

theorem size_multiplyBack (s : Shape) (a b c : Buffer) : (multiplyBack s a b c).c.size = c.size := by
  unfold multiplyBack
  split
  · rfl
  · exact Step.size_run _ _

/-! ## Elements left out, added or replaced -/

/-- Copies all but the last element of the product, made in a buffer of its own. -/
def multiplyButLast (s : Shape) (a b c : Buffer) : Call :=
  let product := Kernel.reference.multiply s a b
  match product.result with
  | .error f => { answer := { result := .error f, log := product.log }, c }
  | .ok full =>
    let kept := full.size - 1
    if kept ≤ c.size then
      { answer := { result := .ok (), log := product.log }
        c := full.extract 0 kept ++ c.extract kept c.size }
    else { answer := { result := .error (.halted .pastEnd), log := product.log }, c }

theorem size_multiplyButLast (s : Shape) (a b c : Buffer) :
    (multiplyButLast s a b c).c.size = c.size := by
  unfold multiplyButLast
  dsimp only
  split
  · rfl
  · split
    · simp only [Array.size_append, Array.size_extract]
      omega
    · rfl

/-- Writes each value at its index, where the buffer has one. -/
def poke (c : Buffer) (values : List (Nat × Single)) : Buffer :=
  values.foldl (fun c (i, v) => c.setIfInBounds i v) c

@[simp] theorem size_poke (c : Buffer) (values : List (Nat × Single)) :
    (poke c values).size = c.size := by
  unfold poke
  induction values generalizing c with
  | nil => rfl
  | cons v rest ih => rw [List.foldl_cons, ih, Array.size_setIfInBounds]

/-- The reference call, after which `change` gives the values to write from the buffer before it. A
call that fails is left as it is. -/
def multiplyThen (change : Shape → Buffer → List (Nat × Single)) (s : Shape) (a b c : Buffer) : Call :=
  let call := multiplyChecked s a b c
  match call.answer.result with
  | .error _ => call
  | .ok _ => { call with c := poke call.c (change s c) }

theorem size_multiplyThen (change : Shape → Buffer → List (Nat × Single)) (s : Shape)
    (a b c : Buffer) : (multiplyThen change s a b c).c.size = c.size := by
  unfold multiplyThen
  dsimp only
  split
  · exact size_multiplyChecked s a b c
  · rw [size_poke]
    exact size_multiplyChecked s a b c

end Reference

/-! ## As kernels -/

namespace Kernel

/-- Sums every element from the last product to the first. -/
def backwards (name : String) (bitExact : Bool) : Kernel where
  name
  bitExact
  multiplyInto := Reference.multiplyBack
  size_c := Reference.size_multiplyBack

/-- Leaves the last element of the product as it was, and checks no length of C. -/
def skipLast (name : String) (bitExact : Bool) : Kernel where
  name
  bitExact
  multiplyInto := Reference.multiplyButLast
  size_c := Reference.size_multiplyButLast

/-- Writes a zero just past the product, where C has room. -/
def tailWriter (name : String) (bitExact : Bool) : Kernel where
  name
  bitExact
  multiplyInto := Reference.multiplyThen fun s _ => [(s.m * s.n, .zero)]
  size_c := Reference.size_multiplyThen _

/-- Puts back what C held at the indices `skipped`, then writes the values of `poked`. -/
def patched (name : String) (bitExact : Bool) (skipped : List Nat) (poked : List (Nat × Single)) :
    Kernel where
  name
  bitExact
  multiplyInto :=
    Reference.multiplyThen fun _ old => (skipped.filterMap fun i => old[i]?.map (i, ·)) ++ poked
  size_c := Reference.size_multiplyThen _

/-- Refuses every shape of at least `minRows` rows. -/
def failing (name : String) (bitExact : Bool) (minRows : Nat) (reason : String) : Kernel where
  name
  bitExact
  multiplyInto s a b c :=
    if minRows ≤ s.m then { answer := .refuse (.invalidArgument (.custom reason)), c }
    else Reference.multiplyChecked s a b c
  size_c s a b c := by
    split
    · rfl
    · exact Reference.size_multiplyChecked s a b c

/-- Stops at every call. -/
def halting (name : String) (bitExact : Bool) : Kernel where
  name
  bitExact
  multiplyInto _ _ _ c := { answer := .halt .deliberate, c }
  size_c _ _ _ _ := rfl

end Kernel

end DenseMatmul
