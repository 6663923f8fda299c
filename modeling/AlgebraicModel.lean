import AlgebraicModel.Scalar.Double
import AlgebraicModel.Scalar.Rational
import AlgebraicModel.Expression.Evaluation
import AlgebraicModel.Config.Reader
import AlgebraicModel.Model.Build
import AlgebraicModel.Model.Lowering
import AlgebraicModel.Logging.Session
import AlgebraicModel.Proofs.Scalar.Arithmetic
import AlgebraicModel.Proofs.Scalar.Exact
import AlgebraicModel.Proofs.Except.Traversal
import AlgebraicModel.Proofs.Expression.AffineForm
import AlgebraicModel.Proofs.Expression.AffineRow
import AlgebraicModel.Proofs.Expression.Affinity
import AlgebraicModel.Proofs.Expression.Canonical
import AlgebraicModel.Proofs.Expression.Closure
import AlgebraicModel.Proofs.Expression.CollectedTerms
import AlgebraicModel.Proofs.Expression.Comparison
import AlgebraicModel.Proofs.Expression.Constructed
import AlgebraicModel.Proofs.Expression.Decomposition
import AlgebraicModel.Proofs.Expression.Derivative
import AlgebraicModel.Proofs.Expression.DerivativeColumn
import AlgebraicModel.Proofs.Expression.Exchange
import AlgebraicModel.Proofs.Expression.Extraction
import AlgebraicModel.Proofs.Expression.FactorOrder
import AlgebraicModel.Proofs.Expression.FirstInvalid
import AlgebraicModel.Proofs.Expression.MergedFactors
import AlgebraicModel.Proofs.Expression.MissingValue
import AlgebraicModel.Proofs.Expression.Outcome
import AlgebraicModel.Proofs.Expression.Power
import AlgebraicModel.Proofs.Expression.Rejections
import AlgebraicModel.Proofs.Expression.SlotTerms
import AlgebraicModel.Proofs.Expression.Slotwise
import AlgebraicModel.Proofs.Expression.Validity
import AlgebraicModel.Proofs.Grouping
import AlgebraicModel.Proofs.Model.Admission
import AlgebraicModel.Proofs.Model.Atomic
import AlgebraicModel.Proofs.Model.CarriedNames
import AlgebraicModel.Proofs.Model.Columns
import AlgebraicModel.Proofs.Model.Failure
import AlgebraicModel.Proofs.Model.Feasibility
import AlgebraicModel.Proofs.Model.Growth
import AlgebraicModel.Proofs.Model.History
import AlgebraicModel.Proofs.Model.Layout
import AlgebraicModel.Proofs.Model.Lowering
import AlgebraicModel.Proofs.Model.Meaning
import AlgebraicModel.Proofs.Model.Naming
import AlgebraicModel.Proofs.Model.Queries
import AlgebraicModel.Proofs.Model.Simplification
