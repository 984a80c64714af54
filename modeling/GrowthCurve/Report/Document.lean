import GrowthCurve.Json.Reader
import GrowthCurve.Json.Writer
import GrowthCurve.Report.Basic

/-!
# Reports and fits in documents

A report is written with one value a line, a fit on one line. Numbers that are
not finite are written as nothing, and no number is read from nothing.
-/

namespace GrowthCurve

def Document.ofReals (xs : List Float) : Document :=
  .ofItems (xs.map .real)

namespace FitSummary

def toDocument (s : FitSummary) : Document :=
  .ofEntries
    [("degree", .integer s.degree), ("coefficients", .ofReals s.coefficients),
     ("r_squared", .real s.rSquared), ("equation", .text s.equation)]

def form : Form FitSummary where
  start := ⟨0, [], 0, ""⟩
  fields :=
    [.of "degree" true Decode.size fun v s => { s with degree := v },
     .of "coefficients" true (Decode.list Decode.real) fun v s => { s with coefficients := v },
     .of "r_squared" true Decode.real fun v s => { s with rSquared := v },
     .of "equation" true Decode.text fun v s => { s with equation := v }]
  shortLists := false

end FitSummary

namespace Report

/-- A report without a derivative fit does not mention one. -/
def toDocument (r : Report) : Document :=
  .ofEntries
    ([("source", .text r.source), ("samples", .integer r.samples),
      ("time_fit", r.timeFit.toDocument)] ++
     (r.derivativeFit.map fun s => ("derivative_fit", s.toDocument)).toList)

def form : Form Report where
  start := ⟨"", 0, FitSummary.form.start, none⟩
  fields :=
    [.of "source" true Decode.text fun v r => { r with source := v },
     .of "samples" true Decode.size fun v r => { r with samples := v },
     .of "time_fit" true FitSummary.form.decode fun v r => { r with timeFit := v },
     .of "derivative_fit" false (Decode.optional FitSummary.form.decode) fun v r =>
       { r with derivativeFit := v }]
  shortLists := false

def toJson (r : Report) : String :=
  Json.write .indented r.toDocument

def ofJson (text : String) : Except Fault Report :=
  Json.decode form.decode text

end Report

namespace Fit

def toDocument (f : Fit Float) : Document :=
  .ofEntries
    [("degree", .integer f.degree), ("coefficients", .ofReals f.coefficients),
     ("predicted", .ofReals f.predicted), ("r_squared", .real f.rSquared)]

/-- A fit that is read evaluates by its coefficients. -/
def form : Form (Fit Float) where
  start := ⟨0, [], [], 0, none⟩
  fields :=
    [.of "degree" true Decode.size fun v f => { f with degree := v },
     .of "coefficients" true (Decode.list Decode.real) fun v f => { f with coefficients := v },
     .of "predicted" true (Decode.list Decode.real) fun v f => { f with predicted := v },
     .of "r_squared" true Decode.real fun v f => { f with rSquared := v }]
  shortLists := false

def toJson (f : Fit Float) : String :=
  Json.write .compact f.toDocument

def ofJson (text : String) : Except Fault (Fit Float) :=
  Json.decode form.decode text

end Fit

end GrowthCurve
