import GraduatedFit.Continuation.Config
import GraduatedFit.Continuation.History
import GraduatedFit.Continuation.Optimizer
import GraduatedFit.Continuation.Report
import GraduatedFit.Continuation.Schedule
import GraduatedFit.Continuation.Weight
import GraduatedFit.Correction
import GraduatedFit.Elimination.Block
import GraduatedFit.Elimination.Misfit
import GraduatedFit.Elimination.Order
import GraduatedFit.Elimination.Places
import GraduatedFit.Elimination.Plan
import GraduatedFit.Error
import GraduatedFit.Error.Message
import GraduatedFit.Factor
import GraduatedFit.Factor.Benchmark
import GraduatedFit.Graph
import GraduatedFit.Graph.Layout
import GraduatedFit.Graph.Report
import GraduatedFit.LeastSquares.Basic
import GraduatedFit.LeastSquares.GaussNewton
import GraduatedFit.LeastSquares.LevenbergMarquardt
import GraduatedFit.LeastSquares.Report
import GraduatedFit.LeastSquares.Solver
import GraduatedFit.LeastSquares.Status
import GraduatedFit.Localization.FieldPattern
import GraduatedFit.Localization.LogFilter
import GraduatedFit.Localization.Options
import GraduatedFit.Localization.Program
import GraduatedFit.Log
import GraduatedFit.Loss
import GraduatedFit.Main
import GraduatedFit.Mat
import GraduatedFit.Mat.Inverse
import GraduatedFit.Noise
import GraduatedFit.NormalEquations
import GraduatedFit.Proofs.BoundedErrors
import GraduatedFit.Proofs.Cholesky
import GraduatedFit.Proofs.ColumnLayout
import GraduatedFit.Proofs.ContinuationRun
import GraduatedFit.Proofs.ControlParameter
import GraduatedFit.Proofs.CostGradient
import GraduatedFit.Proofs.DampedStep
import GraduatedFit.Proofs.DenseAssembly
import GraduatedFit.Proofs.EliminationPlan
import GraduatedFit.Proofs.EliminationTree
import GraduatedFit.Proofs.ErasedSlot
import GraduatedFit.Proofs.EvenWeights
import GraduatedFit.Proofs.ExactArithmetic
import GraduatedFit.Proofs.Extended
import GraduatedFit.Proofs.FailedRun
import GraduatedFit.Proofs.FallingParameter
import GraduatedFit.Proofs.FiniteStates
import GraduatedFit.Proofs.GraphOperations
import GraduatedFit.Proofs.GrowingParameter
import GraduatedFit.Proofs.InlierSlots
import GraduatedFit.Proofs.InlierThreshold
import GraduatedFit.Proofs.KeptVariables
import GraduatedFit.Proofs.MatchedRuns
import GraduatedFit.Proofs.MirroredRuns
import GraduatedFit.Proofs.MovedEstimate
import GraduatedFit.Proofs.NeverUphill
import GraduatedFit.Proofs.OuterDescent
import GraduatedFit.Proofs.OuterIterations
import GraduatedFit.Proofs.PlannedSolve
import GraduatedFit.Proofs.PositiveDefinite
import GraduatedFit.Proofs.RaisedErrors
import GraduatedFit.Proofs.Rearrangement
import GraduatedFit.Proofs.RegularizedSystems
import GraduatedFit.Proofs.RepeatedRuns
import GraduatedFit.Proofs.Results
import GraduatedFit.Proofs.ReweightedLoss
import GraduatedFit.Proofs.Reweighting
import GraduatedFit.Proofs.RobustNoise
import GraduatedFit.Proofs.RobustWrapping
import GraduatedFit.Proofs.RowScaling
import GraduatedFit.Proofs.RunAccounts
import GraduatedFit.Proofs.SafeReweighting
import GraduatedFit.Proofs.SameNumbers
import GraduatedFit.Proofs.SameProducts
import GraduatedFit.Proofs.SingleFactor
import GraduatedFit.Proofs.SlotEvaluation
import GraduatedFit.Proofs.SlotOrder
import GraduatedFit.Proofs.SlotOrderContinuation
import GraduatedFit.Proofs.SolverLoop
import GraduatedFit.Proofs.SparseEntries
import GraduatedFit.Proofs.SparseGram
import GraduatedFit.Proofs.StackedRows
import GraduatedFit.Proofs.StoppingTests
import GraduatedFit.Proofs.Surrogate
import GraduatedFit.Proofs.TrustedSlots
import GraduatedFit.Proofs.UnfailingRuns
import GraduatedFit.Proofs.WeightedGraph
import GraduatedFit.Proofs.WeightedNoise
import GraduatedFit.Proofs.WeightedSystem
import GraduatedFit.Proofs.WhitenedDerivative
import GraduatedFit.Proofs.WhitenedShape
import GraduatedFit.Proofs.ZeroWeight
import GraduatedFit.Registry
import GraduatedFit.Scalar
import GraduatedFit.Sparse
import GraduatedFit.Symmetric
import GraduatedFit.Text.Alphanumeric
import GraduatedFit.Text.Blank
import GraduatedFit.Text.Cased
import GraduatedFit.Text.Class
import GraduatedFit.Text.Decimal
import GraduatedFit.Text.Lowercase
import GraduatedFit.Text.Number
import GraduatedFit.Text.Quoted
import GraduatedFit.Text.Terminal
import GraduatedFit.Values
import GraduatedFit.Vec
import GraduatedFit.Proofs.LinearModel
import GraduatedFit.Proofs.FoldedValley
import GraduatedFit.Proofs.ScaledRuns
import GraduatedFit.Proofs.ScaledSteps
import GraduatedFit.Proofs.GradientTest
import GraduatedFit.Proofs.DampingRange
import GraduatedFit.Proofs.AffineFactors
import GraduatedFit.Proofs.StackedSteps
import GraduatedFit.Proofs.AffineGraphs
import GraduatedFit.Proofs.AffineProblems
import GraduatedFit.Proofs.ReachedStates
import GraduatedFit.Proofs.NewtonSteps
import GraduatedFit.Proofs.ExactSteps
import GraduatedFit.Proofs.ConcaveLosses
import GraduatedFit.Proofs.RobustDescent
import GraduatedFit.Proofs.DenseMatrices
import GraduatedFit.Proofs.PivotedElimination
import GraduatedFit.Proofs.MatrixInverse
import GraduatedFit.Proofs.CholeskyFactor
import GraduatedFit.Proofs.CovarianceModels
import GraduatedFit.Proofs.InterchangeableModels
import GraduatedFit.Proofs.RobustEquations
import GraduatedFit.Proofs.LossDerivatives
import GraduatedFit.Proofs.RangeLinearization
import GraduatedFit.Proofs.InitialParameter
import GraduatedFit.Proofs.RowDependencies
import GraduatedFit.Proofs.RowwiseFactor
import GraduatedFit.Proofs.FactorPattern
import GraduatedFit.Proofs.EliminatedRows
import GraduatedFit.Proofs.PlacedSolve
import GraduatedFit.Proofs.SharedPlan
import GraduatedFit.Proofs.RequestedSystems
import GraduatedFit.Proofs.WeightShape
import GraduatedFit.Proofs.PulledVariable
