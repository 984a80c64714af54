import Mathlib
import GrowthCurve.Proofs.CommandLine.AnalyzeRun
import GrowthCurve.Proofs.Store.Writing

/-!
# What an analysis promises to its callers

The exit status says whether everything worked, the output stream holds a
report that can be relied on, and of all files only the figure changes. What is
said of the error stream is said of all that goes there besides the log.
-/

namespace GrowthCurve.CommandLine

section Rendering

variable {solve : Polynomial.Solver Float} {t t₁ : Terminal} {a : AnalyzeArguments}
  {settings : AnalysisSettings} {s : Series} {store : Store}

end Rendering

/-! ## Files -/

section Files

variable {solve : Polynomial.Solver Float} {t t₁ : Terminal} {common : Common}
  {a : AnalyzeArguments} {settings : AnalysisSettings} {s : Series} {before : Store}

end Files

/-! ## The contract -/

section Ends

variable {solve : Polynomial.Solver Float} {t t₁ t' : Terminal} {common : Common}
  {a : AnalyzeArguments} {settings : AnalysisSettings} {s : Series}

end Ends

/-! ## Runs -/

section Runs

variable {args : List String} {common : Common} {a : AnalyzeArguments}

/-- **A run that halts has written nothing**: it gets as far as the drawing of its
figure and halts there, and apart from a log that was started its terminal is as
it was. -/
theorem run_halts_in_drawing (solve : Polynomial.Solver Float)
    (hargs : Arguments.read args = .ok ⟨common, .analyze a⟩) (t : Terminal)
    (hanswers : a.figure.noWait = true ∨ t.Answers) {cause : Plot.Halt} {t' : Terminal}
    (hrun : (run solve Terminal.host args).run t = (.error cause, t')) :
    t' = common.started t ∧
      ∃ settings s, HaltsDrawing solve t.store.readText common a settings s cause := by
  obtain ⟨r, t₁, harguments, hends⟩ := exists_analyzeEnds solve common hanswers
  rw [run_of_read hargs harguments] at hrun
  cases hends with
  | stopped failure htold _ =>
      rw [exitOf_of_told htold] at hrun
      cases hrun
  | @halted settings s _ _ hhalts =>
      cases hrun
      exact ⟨rfl, settings, s, hhalts⟩
  | incomplete failure htold _ _ _ =>
      rw [exitOf_of_told htold] at hrun
      cases hrun
  | reported _ _ _ => cases hrun

end Runs

end GrowthCurve.CommandLine
