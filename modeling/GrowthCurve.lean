import GrowthCurve.Main
import GrowthCurve.Proofs.Fit.Stored
import GrowthCurve.Proofs.Plot.Dashing
import GrowthCurve.Proofs.Sample.Grammar
import GrowthCurve.Proofs.Decimal.Numerals
import GrowthCurve.Proofs.Sample.Layout
import GrowthCurve.Proofs.Sample.Loading
import GrowthCurve.Proofs.Settings.Limits
import GrowthCurve.Proofs.Settings.Documents
import GrowthCurve.Proofs.Plot.Drawing
import GrowthCurve.Proofs.Analysis.Consistency
import GrowthCurve.Proofs.Analysis.Gallery
import GrowthCurve.Proofs.Analysis.Presentation
import GrowthCurve.Proofs.Comparison.Alignment
import GrowthCurve.Proofs.Report.RoundTrip
import GrowthCurve.Proofs.Store.Writing
import GrowthCurve.Proofs.CommandLine.AnalyzeRun
import GrowthCurve.Proofs.CommandLine.Contract
import GrowthCurve.Proofs.Fit.Closest
import GrowthCurve.Proofs.Fit.Determination
import GrowthCurve.Proofs.Fit.Invariance
import GrowthCurve.Proofs.Plot.Sizes
import GrowthCurve.Proofs.Fit.Itself
import GrowthCurve.Proofs.Analysis.Scores
import GrowthCurve.Proofs.Plot.Inside
import GrowthCurve.Proofs.Fit.Requests
import GrowthCurve.Proofs.Fit.Coefficient
import GrowthCurve.Proofs.Plot.Within
import GrowthCurve.Proofs.Plot.Hidden
import GrowthCurve.Proofs.Analysis.Derivatives
import GrowthCurve.Proofs.Analysis.Reports
import GrowthCurve.Proofs.CommandLine.Options
import GrowthCurve.Proofs.Polynomial.Classes
import GrowthCurve.Proofs.Polynomial.Rank
import GrowthCurve.Proofs.Fit.Equation
