import CurveFit.Lanes.Bank
import CurveFit.Main
import CurveFit.Model.Shapes
import CurveFit.Proofs.Lanes.Padded
import CurveFit.Proofs.Lanes.Elementwise
import CurveFit.Proofs.Lanes.Programs
import CurveFit.Proofs.Fit.NormalEquations
import CurveFit.Proofs.Fit.Ready
import CurveFit.Proofs.Fit.Passes
import CurveFit.Proofs.Fit.Setup
import CurveFit.Proofs.Fit.Reuse
import CurveFit.Proofs.Fit.History
import CurveFit.Proofs.Fit.Schedules
import CurveFit.Proofs.Linear.Elimination
import CurveFit.Proofs.Linear.Idle
import CurveFit.Proofs.Linear.Pivots
import CurveFit.Proofs.Fit.Descent
import CurveFit.Proofs.Binary64.Order
import CurveFit.Proofs.Fit.Progress
import CurveFit.Proofs.Fit.Answers
import CurveFit.Proofs.Fit.Trace
import CurveFit.Proofs.Fit.Points
import CurveFit.Proofs.Fit.Lockstep
import CurveFit.Proofs.Fit.Datasets
import CurveFit.Proofs.Fit.Exact
import CurveFit.Proofs.Fit.LinearModels
import CurveFit.Proofs.Binary64.Rounding
import CurveFit.Proofs.Binary64.Value
import CurveFit.Proofs.Binary64.Arithmetic
import CurveFit.Proofs.Binary64.Division
import CurveFit.Proofs.Binary64.Special
import CurveFit.Proofs.Binary64.Whole
import CurveFit.Proofs.Binary64.Words
import CurveFit.Proofs.Model.Projection
import CurveFit.Proofs.Model.Slopes
import CurveFit.Proofs.Fit.Gate
import CurveFit.Proofs.Fit.Truncated
import CurveFit.Proofs.Fit.Selection
import CurveFit.Proofs.Fit.Constrained
import CurveFit.Proofs.Fit.Damping
import CurveFit.Proofs.Fit.Budgets
import CurveFit.Proofs.Fit.Sizes
import CurveFit.Proofs.Json.Strings
import CurveFit.Proofs.Json.Written
import CurveFit.Proofs.Text.Shortest
import CurveFit.Proofs.Json.Reals
import CurveFit.Proofs.Json.Scaling
import CurveFit.Proofs.Json.Accuracy
import CurveFit.Proofs.Json.Documents
import CurveFit.Proofs.Json.Records
import CurveFit.Proofs.Report.Files
import CurveFit.Proofs.Report.Exports
import CurveFit.Proofs.Settings.Layers
import CurveFit.Proofs.Exponential.Range
import CurveFit.Proofs.Exponential.Steps
import CurveFit.Proofs.Exponential.Positive
import CurveFit.Proofs.Exponential.Lanes
import CurveFit.Proofs.Exponential.Accuracy
import CurveFit.Proofs.Fit.Tracing
import CurveFit.Proofs.Lanes.Agreement
import CurveFit.Proofs.Fit.InnerProducts
import CurveFit.Proofs.Binary64.Extremes
import CurveFit.Proofs.Sample.Grid
import CurveFit.Proofs.Sample.Values
import CurveFit.Proofs.Model.Guess
import CurveFit.Proofs.Sample.Families
import CurveFit.Proofs.Cli.Spellings
import CurveFit.Proofs.Sample.EvenGrids
