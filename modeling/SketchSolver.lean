import SketchSolver.Command
import SketchSolver.Config.Number
import SketchSolver.Decimal.Places
import SketchSolver.Expr.Text
import SketchSolver.LinearAlgebra.Standard
import SketchSolver.Proofs.Solve.Assembly
import SketchSolver.Proofs.Solve.Alone
import SketchSolver.Proofs.Solve.Merging
import SketchSolver.Proofs.Solve.Ending
import SketchSolver.Proofs.Solve.Atomicity
import SketchSolver.Proofs.Solve.Soundness
import SketchSolver.Proofs.Solve.Isolation
import SketchSolver.Proofs.Run.Effect
import SketchSolver.Proofs.Run.Flags
import SketchSolver.Proofs.Exact.Arith
import SketchSolver.Proofs.Solve.Solutions
import SketchSolver.Proofs.Run.Integrity
import SketchSolver.Proofs.Exact.Differential
import SketchSolver.Proofs.Exact.Motion
import SketchSolver.Proofs.Solve.Counting
import SketchSolver.Proofs.Exact.Freedom
import SketchSolver.Proofs.Exact.Redundancy
import SketchSolver.Proofs.Solve.Outline
import SketchSolver.Proofs.Solve.Standstill
import SketchSolver.Proofs.Solve.Rewriting
import SketchSolver.Proofs.Exact.Idempotence
import SketchSolver.Proofs.Run.Placement
import SketchSolver.Proofs.Run.Reading
import SketchSolver.Proofs.Run.Translation
import SketchSolver.Proofs.Run.Totality
import SketchSolver.Proofs.Run.Interference
import SketchSolver.Proofs.Run.BottomUp
import SketchSolver.Proofs.Run.Exclusion
import SketchSolver.Proofs.Exact.Calculus
import SketchSolver.Proofs.Exact.Jacobian
import SketchSolver.Proofs.Run.Requests
import SketchSolver.Proofs.Run.Building
import SketchSolver.Proofs.Run.Completeness
import SketchSolver.Proofs.Order
import SketchSolver.Proofs.Solve.Range
import SketchSolver.Proofs.Solve.Residual
import SketchSolver.Proofs.Exact.Arcs
import SketchSolver.Proofs.Exact.Freezing
import SketchSolver.Proofs.Exact.Measuring
import SketchSolver.Proofs.Exact.Mirroring
import SketchSolver.Proofs.Exact.Tangency
import SketchSolver.Proofs.Solve.Partition
import SketchSolver.Proofs.Exact.Auxiliary
import SketchSolver.Proofs.Exact.Sweeps
import SketchSolver.Proofs.Exact.ArcLengths
import SketchSolver.Proofs.Exact.Seeds
import SketchSolver.Proofs.Exact.Alignment
import SketchSolver.Proofs.Solve.Magnitudes
import SketchSolver.Proofs.Solve.Stalling
import SketchSolver.Proofs.Exact.LeastSteps
import SketchSolver.Proofs.Exact.Unmentioned
import SketchSolver.Proofs.Exact.FreeParams
import SketchSolver.Proofs.Solve.Blame
import SketchSolver.Proofs.Text.Expressions
import SketchSolver.Proofs.Text.Configuration
import SketchSolver.Proofs.Parameters
