import DenseMatmul.Matrix.View
/-!
# Accesses through a view

What can be done through a view, one access at a time: whole or in part, to read or to write. An access
that faults leaves the view as it was.
-/

namespace DenseMatmul

inductive Access where
  | elements
  | get (row col : Nat)
  | row (row : Nat)
  | set (row col : Nat) (value : Single)
  | add (row col : Nat) (value : Single)
  | fill (value : Single)
  deriving DecidableEq

/-- What an access reads. A write reads all elements afterwards. -/
inductive Reading where
  | elements (data : Buffer)
  | value (x : Single)
  | row (data : Buffer)
  deriving DecidableEq

namespace View

/-- The view after a write, with its elements. -/
def written (after : View) : Reading × View := (.elements after.elements, after)

/-- What an access reads and the view after it. -/
def run (v : View) : Access → Except Fault (Reading × View)
  | .elements => .ok (.elements v.elements, v)
  | .get row col => do return (.value (← v.get row col), v)
  | .row row => do return (.row (← v.row row), v)
  | .set row col value => written <$> v.set row col value
  | .add row col value => written <$> v.add row col value
  | .fill value => .ok (v.fill value).written

/-- The result of an access, and the view after it, which is the old one after a fault. -/
def step (v : View) (access : Access) : Except Fault Reading × View :=
  match v.run access with
  | .ok (reading, after) => (.ok reading, after)
  | .error f => (.error f, v)

end View

end DenseMatmul
