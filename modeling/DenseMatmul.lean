import DenseMatmul.Boundary.Session
import DenseMatmul.Conformance.Check
import DenseMatmul.Kernel.Faulty
import DenseMatmul.Matrix.Access
import DenseMatmul.Matrix.Workspace
import DenseMatmul.Proofs.Lengths
import DenseMatmul.Proofs.Stores
import DenseMatmul.Proofs.Bands
import DenseMatmul.Proofs.Routes
import DenseMatmul.Proofs.Cases
import DenseMatmul.Proofs.Verdict
import DenseMatmul.Proofs.Acceptance
import DenseMatmul.Proofs.Tables
import DenseMatmul.Proofs.Calls
import DenseMatmul.Proofs.Causes
import DenseMatmul.Proofs.Histories
import DenseMatmul.Proofs.Channel
import DenseMatmul.Proofs.Dimensions
import DenseMatmul.Proofs.Handles
import DenseMatmul.Proofs.Views
import DenseMatmul.Proofs.Matrices
import DenseMatmul.Proofs.Workspaces
import DenseMatmul.Proofs.Binding
import DenseMatmul.Proofs.Forms
import DenseMatmul.Proofs.Rounding
import DenseMatmul.Proofs.Encoding
import DenseMatmul.Proofs.Arithmetic
import DenseMatmul.Proofs.WholeNumbers
import DenseMatmul.Proofs.Widening
import DenseMatmul.Proofs.Transposed
import DenseMatmul.Proofs.CrossCheck
import DenseMatmul.Proofs.Order
import DenseMatmul.Proofs.Differences
import DenseMatmul.Proofs.Modes
import DenseMatmul.Proofs.Products
import DenseMatmul.Proofs.SingleLaws
import DenseMatmul.Proofs.TransposeLaw
import DenseMatmul.Proofs.Identity
import DenseMatmul.Proofs.Propagation
import DenseMatmul.Proofs.Operations
import DenseMatmul.Proofs.BandHeights
import DenseMatmul.Proofs.BandPlan
import DenseMatmul.Proofs.Conversion
import DenseMatmul.Proofs.TransposedCalls
import DenseMatmul.Proofs.DeclaredLengths
import DenseMatmul.Proofs.Tolerances
import DenseMatmul.Proofs.Comparisons
import DenseMatmul.Proofs.Replay
import DenseMatmul.Proofs.Outcomes
import DenseMatmul.Proofs.TransposeTwice
import DenseMatmul.Proofs.RowLists
import DenseMatmul.Proofs.Texts
import DenseMatmul.Proofs.Selections
