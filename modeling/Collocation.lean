import Collocation.Number.Float
import Collocation.Proofs.Exact
import Collocation.Proofs.Outcome
import Collocation.Proofs.Mesh
import Collocation.Proofs.Quadrature
import Collocation.Proofs.Expression.Size
import Collocation.Proofs.Expression.Sound
import Collocation.Proofs.Expression.Rules
import Collocation.Proofs.Expression.Term
import Collocation.Proofs.Expression.Column
import Collocation.Proofs.Expression.Same
import Collocation.Proofs.Expression.Value
import Collocation.Proofs.Cancellation
import Collocation.Proofs.Expression.RuleValues
import Collocation.Proofs.Problem
import Collocation.Proofs.Costs
import Collocation.Proofs.Scheme.Construction
import Collocation.Proofs.Scheme.Phases
import Collocation.Proofs.Scheme.Blocks
import Collocation.Proofs.Scheme.Values
import Collocation.Proofs.Scheme.Families
import Collocation.Proofs.Scheme.Defects
import Collocation.Proofs.Scheme.Vectors
import Collocation.Proofs.Scheme.Trapezoidal
import Collocation.Proofs.Scheme.HermiteSimpson
import Collocation.Proofs.Scheme.Steps
import Collocation.Proofs.Scheme.Retry
import Collocation.Proofs.Scheme.Objective
import Collocation.Proofs.Scheme.Integral
import Collocation.Proofs.PolynomialRules
import Collocation.Proofs.PiecewisePolynomial
import Collocation.Proofs.Times
import Collocation.Proofs.Scheme.Transcribed
import Collocation.Proofs.Scheme.Order
import Collocation.Proofs.Scheme.Exactness
import Collocation.Verbosity
import Collocation.Workspace.Run
import Collocation.Proofs.Tables
import Collocation.Proofs.Interpolation
import Collocation.Proofs.Layout
import Collocation.Proofs.Scheme.Grid
import Collocation.Proofs.Scheme.Guess
import Collocation.Proofs.Scheme.WarmStart
import Collocation.Proofs.Scheme.BoundTables
import Collocation.Proofs.Scheme.Feasible
import Collocation.Proofs.Scheme.Remeshing
import Collocation.Proofs.Literal
import Collocation.Proofs.Stacking
import Collocation.Proofs.Scheme.RoundTrip
import Collocation.Proofs.Places
import Collocation.Proofs.Scheme.SharedLayout
import Collocation.Proofs.Faults
import Collocation.Proofs.Scheme.Buildable
import Collocation.Proofs.Scheme.Contract
import Collocation.Proofs.Expression.Shape
import Collocation.Proofs.Scheme.Calls
import Collocation.Proofs.Scheme.Pieces
import Collocation.Proofs.Scheme.Accumulation
import Collocation.Proofs.Invariants
import Collocation.Proofs.Comparison
import Collocation.Proofs.Bounds
import Collocation.Proofs.Scheme.OrderedTables
import Collocation.Proofs.Scheme.BackendBounds
import Collocation.Proofs.Scheme.Dimensions
import Collocation.Proofs.Workspace.Steps
import Collocation.Proofs.Workspace.Frames
import Collocation.Proofs.Workspace.Frozen
import Collocation.Proofs.Workspace.DeclaredBounds
import Collocation.Proofs.Workspace.Dimensions
import Collocation.Proofs.Resampling
import Collocation.Proofs.Scheme.TimeLaw
import Collocation.Proofs.Scheme.ValidGrid
import Collocation.Proofs.Workspace.Grids
import Collocation.Proofs.Indexing
import Collocation.Proofs.Scheme.ElementBounds
import Collocation.Proofs.Scheme.NamedRows
import Collocation.Proofs.Workspace.Roster
import Collocation.Proofs.Workspace.Declarations
import Collocation.Proofs.Means
import Collocation.Proofs.Refining
import Collocation.Proofs.Positions
import Collocation.Proofs.Reversal
import Collocation.Proofs.Selection
import Collocation.Proofs.Workspace.BlockWrites
import Collocation.Proofs.Workspace.Draws
import Collocation.Proofs.Scheme.MiddleGuess
import Collocation.Proofs.Scheme.CrossedBounds
