import GrowthCurve.Scalar

/-!
# Polynomials

A polynomial is a list of coefficients, highest degree first. A fitted
polynomial is kept over the shifted and scaled variable `(x - shift) / scale`
in which it was computed, and can be expanded into powers of `x`.
-/

namespace GrowthCurve.Polynomial

variable {α : Type} [Scalar α]

/-- The value at `x` of the polynomial with these coefficients, highest degree first. -/
def evaluate (coefficients : List α) (x : α) : α :=
  coefficients.foldl (fun value c => value * x + c) (Scalar.ofNat 0)

/-- A polynomial over `(x - shift) / scale`, lowest degree first. -/
structure Scaled (α : Type) where
  coefficients : List α
  shift : α
  scale : α
deriving Repr

namespace Scaled

/-- The shifted and scaled variable at `x`. -/
def parameter (p : Scaled α) (x : α) : α :=
  (x - p.shift) / p.scale

def evaluate (p : Scaled α) (x : α) : α :=
  Polynomial.evaluate p.coefficients.reverse (p.parameter x)

/-- The summands of `c · (x + b) ^ k / h`, lowest power of `x` first, from the
power `j` on, where `r` powers are left and `binomial` is `k` over `j`. -/
def binomialTerms (c b inverse : α) : (j r : Nat) → (binomial : α) → List α
  | _, 0, binomial => [c * binomial * Scalar.power b 0 * inverse]
  | j, r + 1, binomial =>
    (c * binomial * Scalar.power b (r + 1) * inverse) ::
      binomialTerms c b inverse (j + 1) r
        (binomial * Scalar.ofNat (r + 1) / Scalar.ofNat (j + 1))

/-- Adds a polynomial of lower or equal length, lowest degree first. -/
def addTo : List α → List α → List α
  | a :: as, b :: bs => (a + b) :: addTo as bs
  | as, [] => as
  | [], _ :: _ => []

/-- The expansion of the summand of degree `k`. -/
def expandTerm (p : Scaled α) (c : α) (k : Nat) : List α :=
  binomialTerms c (-p.shift) (Scalar.ofNat 1 / Scalar.power p.scale k) 0 k (Scalar.ofNat 1)

/-- Coefficients of the powers of `x`, lowest degree first. -/
def expansion (p : Scaled α) : List α :=
  p.coefficients.zipIdx.foldl (fun total ck => addTo total (p.expandTerm ck.1 ck.2))
    (List.replicate p.coefficients.length (Scalar.ofNat 0))

/-- Coefficients of the powers of `x`, highest degree first. -/
def coefficientsHighestFirst (p : Scaled α) : List α :=
  p.expansion.reverse

end Scaled

end GrowthCurve.Polynomial
