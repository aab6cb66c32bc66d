import DenseMatmul.Matrix
/-!
# Workspaces

A workspace holds matrices under names. Commands make matrices, change, read and remove them; one
that fails leaves every matrix as it was.
-/

namespace DenseMatmul

/-- How a new matrix is made. -/
inductive Recipe where
  | ofData (data : Buffer) (rows cols : Nat)
  | zeros (rows cols : Nat)
  | identity (n : Nat)
  | ofRows (rows : List Buffer)
  | copy (x : String)
  | transpose (x : String)
  | product (kernel : Kernel) (x y : String)

inductive Command where
  | make (name : String) (recipe : Recipe)
  | set (x : String) (row col : Nat) (value : Single)
  | add (x : String) (row col : Nat) (value : Single)
  | get (x : String) (row col : Nat)
  | row (x : String) (row : Nat)
  | equal (x y : String)
  /-- Takes the elements out and removes the matrix. -/
  | take (x : String)

inductive Answer where
  | matrix (x : Matrix)
  | value (x : Single)
  | row (data : Buffer)
  | equal (holds : Bool)
  | data (data : Buffer)
  deriving DecidableEq

structure Workspace where
  /-- Matrices by name, the newest first. -/
  matrices : List (String × Matrix) := []
  deriving DecidableEq

namespace Workspace

def find (w : Workspace) (name : String) : Logged MatmulError Matrix :=
  match w.matrices.lookup name with
  | some x => pure x
  | none => .halt (.unknownMatrix name)

/-- Removes a matrix. -/
def erase (w : Workspace) (name : String) : Workspace :=
  ⟨w.matrices.filter (·.1 != name)⟩

/-- Puts a matrix in the place of one with the same name. -/
def insert (w : Workspace) (name : String) (x : Matrix) : Workspace :=
  ⟨(name, x) :: (w.erase name).matrices⟩

def make (w : Workspace) : Recipe → Logged MatmulError Matrix
  | .ofData data rows cols => .ofExcept (Matrix.ofData data rows cols)
  | .zeros rows cols => .ofExcept (Matrix.zeros rows cols)
  | .identity n => .ofExcept (Matrix.identity n)
  | .ofRows rows => .ofExcept (Matrix.ofRows rows)
  | .copy x => w.find x
  | .transpose x => do .ofFault (← w.find x).transpose
  | .product kernel x y => do Matrix.multiply kernel (← w.find x) (← w.find y)

/-- Changes a matrix in its place and answers it. -/
def update (w : Workspace) (name : String) (change : Matrix → Except Fault Matrix) :
    Logged MatmulError (Answer × Workspace) := do
  let x ← .ofFault (change (← w.find name))
  return (.matrix x, w.insert name x)

/-- The answer to a command and the workspace after it. -/
def run (w : Workspace) : Command → Logged MatmulError (Answer × Workspace)
  | .make name recipe => do
    let x ← w.make recipe
    return (.matrix x, w.insert name x)
  | .set x row col value => w.update x (·.set row col value)
  | .add x row col value => w.update x (·.add row col value)
  | .get x row col => do return (.value (← .ofFault ((← w.find x).get row col)), w)
  | .row x row => do return (.row (← .ofFault ((← w.find x).row row)), w)
  | .equal x y => do return (.equal ((← w.find x).equal (← w.find y)), w)
  | .take x => do return (.data (← w.find x).data, w.erase x)

/-- The result of a command, and the workspace after it, which is the old one if it failed. -/
def step (w : Workspace) (command : Command) : Logged MatmulError Answer × Workspace :=
  let ran := w.run command
  match ran.result with
  | .ok (answer, after) => ({ result := .ok answer, log := ran.log }, after)
  | .error e => ({ result := .error e, log := ran.log }, w)

end Workspace

end DenseMatmul
