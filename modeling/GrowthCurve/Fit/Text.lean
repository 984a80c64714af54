import GrowthCurve.Fit.Basic
import GrowthCurve.Decimal.Layout

/-!
# Fits in words

Equations, legend entries and summaries of fits.
-/

namespace GrowthCurve

/-- The growth that a benchmark is expected to show. -/
inductive Model where
  | linear
  | cubic
deriving Repr, DecidableEq

namespace Model

def degree : Model → Nat
  | .linear => 1
  | .cubic => 3

def name : Model → String
  | .linear => "linear"
  | .cubic => "cubic"

def all : List Model := [.linear, .cubic]

def ofName? (s : String) : Option Model :=
  all.find? fun m => m.name = s

end Model

/-- What a fit of a degree is called in a legend. -/
def degreeCaption : Nat → String
  | 0 => "Constant fit"
  | 1 => "Linear regression"
  | 2 => "Quadratic fit"
  | 3 => "Cubic fit"
  | _ => "Polynomial fit"

namespace Equation

/-- The power of a term, unless it is `x ^ 0`. -/
def powerText : Nat → String
  | 0 => ""
  | 1 => "·x"
  | p => "·x^" ++ toString p

/-- What stands before the magnitude of a term. -/
def signText (first negative : Bool) : String :=
  match first, negative with
  | true, true => " - "
  | true, false => " "
  | false, true => " - "
  | false, false => " + "

/-- The terms of an equation, where the last coefficient has power zero. Each
coefficient is given by its sign and the text of its magnitude. -/
def terms (first : Bool) : List (Bool × String) → String
  | [] => ""
  | (negative, magnitude) :: rest =>
    signText first negative ++ magnitude ++ powerText rest.length ++ terms false rest

/-- A coefficient as the equation shows it: whether it is below zero, and four
digits of its magnitude. -/
def coefficient (c : Float) : Bool × String :=
  (c < 0, Decimal.scientific 3 c.abs)

/-- The equation of a polynomial, highest degree first. -/
def write (coefficients : List Float) : String :=
  "y =" ++ terms true (coefficients.map coefficient)

end Equation

namespace Fit

def equation (f : Fit Float) : String :=
  Equation.write f.coefficients

def rSquaredRounded (f : Fit Float) : Float :=
  roundHalfAway (f.rSquared * 1000) / 1000

def label (f : Fit Float) : String :=
  degreeCaption f.degree ++ " (degree = " ++ toString f.degree ++ ", R² = " ++
    Decimal.fixed 3 f.rSquaredRounded ++ ")"

def summary (f : Fit Float) : String :=
  "degree " ++ toString f.degree ++ " fit, r^2 = " ++ Decimal.fixed 6 f.rSquared ++
    " (" ++ f.equation ++ ")"

end Fit

end GrowthCurve
