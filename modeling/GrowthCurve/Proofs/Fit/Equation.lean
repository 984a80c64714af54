import Mathlib
import GrowthCurve.Fit.Text
import GrowthCurve.Proofs.Decimal.Layout
import GrowthCurve.Proofs.Text.Padding

/-!
# Reading equations

An equation is cut at its spaces. Behind `y` and `=` signs and terms alternate,
where the first sign is left out if it is a plus: then the number of pieces is
odd. A term is a magnitude up to the dot, and a power. A magnitude without a
space and without a dot is therefore read back, so that an equation tells
everything about the coefficients that it shows.
-/

namespace GrowthCurve.Equation

/-! ## Readers -/

/-- What an equation tells about a coefficient. -/
structure Term where
  power : ℕ
  negative : Bool
  magnitude : String
deriving Repr, DecidableEq

/-- Whether a sign is a minus. -/
def sign? : List Char → Option Bool
  | ['-'] => some true
  | ['+'] => some false
  | _ => none

/-- The power that stands behind a magnitude. -/
def power? : List Char → Option ℕ
  | [] => some 0
  | ['·', 'x'] => some 1
  | '·' :: 'x' :: '^' :: digits => some (Decimal.natOfDigits digits)
  | _ => none

def readTerm (sign term : List Char) : Option Term := do
  let negative ← sign? sign
  let power ← power? (term.dropWhile (· ≠ '·'))
  return ⟨power, negative, String.ofList (term.takeWhile (· ≠ '·'))⟩

/-- Reads signs and terms in turn. -/
def readTerms : List (List Char) → Option (List Term)
  | [] => some []
  | [_] => none
  | sign :: term :: rest => do
    let first ← readTerm sign term
    let others ← readTerms rest
    return first :: others

/-- Reads an equation. An odd number of pieces lacks the first sign. -/
def read (equation : String) : Option (List Term) :=
  match Text.splitAt ' ' equation.toList with
  | ['y'] :: ['='] :: pieces =>
    readTerms (if pieces.length % 2 = 0 then pieces else ['+'] :: pieces)
  | _ => none

/-! ## What there is to read -/

/-- A text that holds no space and no dot. -/
def Unbroken (s : String) : Prop :=
  ' ' ∉ s.toList ∧ '·' ∉ s.toList

/-- The terms that some signs and magnitudes belong to, down to power zero. -/
def termsOf : List (Bool × String) → List Term
  | [] => []
  | (negative, magnitude) :: rest => ⟨rest.length, negative, magnitude⟩ :: termsOf rest

/-- The signs and terms of an equation, with the first sign. -/
def pieces : List (Bool × String) → List (List Char)
  | [] => []
  | (negative, magnitude) :: rest =>
    [if negative then '-' else '+'] :: (magnitude ++ powerText rest.length).toList :: pieces rest

variable {shown : List (Bool × String)} {magnitude : String}

theorem length_pieces (shown : List (Bool × String)) :
    (pieces shown).length = 2 * shown.length := by
  induction shown with
  | nil => rfl
  | cons s rest ih =>
      rw [pieces, List.length_cons, List.length_cons, ih, List.length_cons]
      omega

theorem length_termsOf (shown : List (Bool × String)) : (termsOf shown).length = shown.length := by
  induction shown with
  | nil => rfl
  | cons s rest ih => rw [termsOf, List.length_cons, ih, List.length_cons]

theorem getElem?_termsOf {i : ℕ} {negative : Bool} (h : shown[i]? = some (negative, magnitude)) :
    (termsOf shown)[i]? = some ⟨shown.length - 1 - i, negative, magnitude⟩ := by
  induction shown generalizing i with
  | nil => cases h
  | cons s rest ih =>
      cases i with
      | zero =>
          cases h
          rfl
      | succ i =>
          rw [List.getElem?_cons_succ] at h
          rw [termsOf, List.getElem?_cons_succ, ih h, List.length_cons]
          congr 2
          omega

/-- Signs and magnitudes are what the terms tell. -/
theorem map_termsOf (shown : List (Bool × String)) :
    (termsOf shown).map (fun t => (t.negative, t.magnitude)) = shown := by
  induction shown with
  | nil => rfl
  | cons s rest ih => rw [termsOf, List.map_cons, ih]

/-! ## One term -/

/-- A power is left out, or lacks its exponent, or shows it. -/
theorem powerText_cases (p : ℕ) :
    p = 0 ∧ (powerText p).toList = [] ∨ p = 1 ∧ (powerText p).toList = ['·', 'x'] ∨
      (powerText p).toList = '·' :: 'x' :: '^' :: (toString p).toList := by
  match p with
  | 0 => exact .inl ⟨rfl, by simp [powerText]⟩
  | 1 => exact .inr (.inl ⟨rfl, by simp [powerText]⟩)
  | p + 2 => exact .inr (.inr (by simp [powerText]))

theorem head?_powerText {p : ℕ} {c : Char} (h : (powerText p).toList.head? = some c) : c = '·' := by
  rcases powerText_cases p with ⟨-, htext⟩ | ⟨-, htext⟩ | htext <;> rw [htext] at h
  · cases h
  · exact (Option.some.inj h).symm
  · exact (Option.some.inj h).symm

theorem not_mem_powerText (p : ℕ) : ' ' ∉ (powerText p).toList := by
  rcases powerText_cases p with ⟨-, htext⟩ | ⟨-, htext⟩ | htext <;> rw [htext]
  · exact List.not_mem_nil
  · decide
  · have hdigits := (Decimal.visible_natural p).not_mem (c := ' ') (.inl (by decide))
    simpa using hdigits

theorem power?_powerText (p : ℕ) : power? (powerText p).toList = some p := by
  rcases powerText_cases p with ⟨rfl, htext⟩ | ⟨rfl, htext⟩ | htext <;> rw [htext]
  · rfl
  · rfl
  · rw [power?, Decimal.natOfDigits_toString]

theorem readTerm_term (hmagnitude : Unbroken magnitude) (negative : Bool) (p : ℕ) :
    readTerm [if negative then '-' else '+'] (magnitude ++ powerText p).toList =
      some ⟨p, negative, magnitude⟩ := by
  have hrun : ∀ c ∈ magnitude.toList, decide (c ≠ '·') = true := by
    intro c hc
    exact decide_eq_true fun hdot => hmagnitude.2 (hdot ▸ hc)
  have hrest : ∀ c, (powerText p).toList.head? = some c → decide (c ≠ '·') = false := by
    intro c hc
    simp [head?_powerText hc]
  have hsign : sign? [if negative then '-' else '+'] = some negative := by
    cases negative <;> rfl
  unfold readTerm
  rw [hsign, String.toList_append, Text.dropWhile_run_append hrun hrest,
    Text.takeWhile_run_append hrun hrest, power?_powerText, String.ofList_toList]
  rfl

theorem readTerms_pieces (h : ∀ s ∈ shown, Unbroken s.2) :
    readTerms (pieces shown) = some (termsOf shown) := by
  induction shown with
  | nil => rfl
  | cons s rest ih =>
      have hrest := ih fun s hs => h s (List.mem_cons_of_mem _ hs)
      rw [pieces, readTerms, readTerm_term (h s List.mem_cons_self), hrest]
      rfl

/-! ## Equations -/

theorem not_mem_term (hmagnitude : Unbroken magnitude) (p : ℕ) :
    ' ' ∉ (magnitude ++ powerText p).toList := by
  rw [String.toList_append, List.mem_append, not_or]
  exact ⟨hmagnitude.1, not_mem_powerText p⟩

/-- A sign stands between two spaces, and a term ends at the sign of the next. -/
theorem splitAt_terms (h : ∀ s ∈ shown, Unbroken s.2) (cs : List Char) :
    Text.splitAt ' ' (cs ++ (terms false shown).toList) = Text.splitAt ' ' cs ++ pieces shown := by
  induction shown generalizing cs with
  | nil => simp [terms, pieces]
  | cons s rest ih =>
      obtain ⟨negative, magnitude⟩ := s
      have hmagnitude := h _ List.mem_cons_self
      have hrest := ih fun s hs => h s (List.mem_cons_of_mem _ hs)
      have htext : (terms false ((negative, magnitude) :: rest)).toList =
          ' ' :: ([if negative then '-' else '+'] ++ ' ' ::
            ((magnitude ++ powerText rest.length).toList ++ (terms false rest).toList)) := by
        cases negative <;> simp [terms, signText]
      have hsign : ' ' ∉ [if negative then '-' else '+'] := by
        cases negative <;> decide
      rw [htext, Text.splitAt_append_cons, Text.splitAt_append_cons, hrest,
        Text.splitAt_of_not_mem hsign, Text.splitAt_of_not_mem (not_mem_term hmagnitude _)]
      rfl

/-- Only a plus is left out, and only in front of the first term. -/
theorem splitAt_equation (h : ∀ s ∈ shown, Unbroken s.2) :
    ∃ ps, Text.splitAt ' ' ("y =" ++ terms true shown).toList = ['y'] :: ['='] :: ps ∧
      (ps = pieces shown ∨ ['+'] :: ps = pieces shown) := by
  have hhead : Text.splitAt ' ' "y =".toList = [['y'], ['=']] := by
    simp [Text.splitAt, Text.addToPieces]
  rw [String.toList_append]
  cases shown with
  | nil => exact ⟨[], by simpa [terms] using hhead, .inl rfl⟩
  | cons first rest =>
      obtain ⟨negative, magnitude⟩ := first
      cases negative with
      | true =>
          refine ⟨_, ?_, .inl rfl⟩
          show Text.splitAt ' ' (_ ++ (terms false ((true, magnitude) :: rest)).toList) = _
          rw [splitAt_terms h, hhead]
          rfl
      | false =>
          have htext : (terms true ((false, magnitude) :: rest)).toList =
              ' ' :: ((magnitude ++ powerText rest.length).toList ++
                (terms false rest).toList) := by
            simp [terms, signText]
          refine ⟨_, ?_, .inr rfl⟩
          rw [htext, Text.splitAt_append_cons, hhead,
            splitAt_terms fun s hs => h s (List.mem_cons_of_mem _ hs),
            Text.splitAt_of_not_mem (not_mem_term (h _ List.mem_cons_self) _)]
          rfl

/-- What an equation shows is read back. -/
theorem read_terms (h : ∀ s ∈ shown, Unbroken s.2) :
    read ("y =" ++ terms true shown) = some (termsOf shown) := by
  obtain ⟨ps, hsplit, hps⟩ := splitAt_equation h
  have hlength := length_pieces shown
  have hsigned : (if ps.length % 2 = 0 then ps else ['+'] :: ps) = pieces shown := by
    rcases hps with hps | hps
    · rw [if_pos (by rw [hps]; omega), hps]
    · rw [← hps, List.length_cons] at hlength
      rw [if_neg (by omega), hps]
  unfold read
  rw [hsplit]
  exact (congrArg readTerms hsigned).trans (readTerms_pieces h)

example : read "y = - 2.000e0·x + 1.000e-1" =
    some [⟨1, true, "2.000e0"⟩, ⟨0, false, "1.000e-1"⟩] := by decide

/-! ## Coefficients -/

theorem unbroken_coefficient (c : Float) : Unbroken (coefficient c).2 := by
  have hvisible := Decimal.visible_scientific 3 c.abs
  exact ⟨hvisible.not_mem (.inl (by decide)), hvisible.not_mem (.inr (by decide))⟩

theorem read_write (coefficients : List Float) :
    read (write coefficients) = some (termsOf (coefficients.map coefficient)) := by
  apply read_terms
  intro s hs
  obtain ⟨c, -, rfl⟩ := List.mem_map.mp hs
  exact unbroken_coefficient c

theorem write_inj {as bs : List Float} :
    write as = write bs ↔ as.map coefficient = bs.map coefficient := by
  constructor
  · intro h
    have hterms : termsOf (as.map coefficient) = termsOf (bs.map coefficient) := by
      rw [← Option.some_inj, ← read_write, h, read_write]
    rw [← map_termsOf (as.map coefficient), hterms, map_termsOf]
  · intro h
    rw [write, h, write]

theorem coefficient_eq_iff {a b : Float} :
    coefficient a = coefficient b ↔
      (a < 0 ↔ b < 0) ∧ Decimal.scientific 3 a.abs = Decimal.scientific 3 b.abs := by
  rw [coefficient, coefficient, Prod.mk.injEq, decide_eq_decide]

end GrowthCurve.Equation

namespace GrowthCurve.Fit

/-- **Equations are uniquely readable**: two fits have the same equation if and only if
their coefficients agree in number and, one by one, in being below zero and in the
digits that are shown. All of this is read off the equation, together with the power
of each coefficient: signs stand between blanks, which no digits contain. -/
theorem equation_uniquely_readable :
    (∀ f g : Fit Float, f.equation = g.equation ↔
      List.Forall₂ (fun a b =>
          (a < 0 ↔ b < 0) ∧ Decimal.scientific 3 a.abs = Decimal.scientific 3 b.abs)
        f.coefficients g.coefficients) ∧
      ∀ f : Fit Float, ∃ ts, Equation.read f.equation = some ts ∧
        ts.length = f.coefficients.length ∧
        ∀ (i : ℕ) (c : Float), f.coefficients[i]? = some c →
          ts[i]? = some ⟨f.coefficients.length - 1 - i, c < 0, Decimal.scientific 3 c.abs⟩ := by
  constructor
  · intro f g
    have hmap : f.coefficients.map Equation.coefficient = g.coefficients.map Equation.coefficient ↔
        List.Forall₂ (fun a b => Equation.coefficient a = Equation.coefficient b)
          f.coefficients g.coefficients := by
      rw [← List.forall₂_eq_eq_eq, List.forall₂_map_left_iff, List.forall₂_map_right_iff]
    rw [equation, equation, Equation.write_inj, hmap]
    simp only [Equation.coefficient_eq_iff]
  · intro f
    refine ⟨_, Equation.read_write f.coefficients, ?_, fun i c hc => ?_⟩
    · rw [Equation.length_termsOf, List.length_map]
    · have hshown :
          (f.coefficients.map Equation.coefficient)[i]? = some (Equation.coefficient c) := by
        rw [List.getElem?_map, hc, Option.map_some]
      rw [Equation.getElem?_termsOf hshown, List.length_map]

/-- The two zeros look the same in an equation, and its leading term is read with
its sign and its power. -/
theorem equation_uniquely_readable_zeros :
    let f : Fit Float := ⟨2, [-1.5, 0.0, 4.0], [], 1, none⟩
    let g : Fit Float := ⟨2, [-1.5, -0.0, 4.0], [], 1, none⟩
    f.equation = g.equation ∧
      ∃ ts, Equation.read f.equation = some ts ∧
        ts[0]? = some ⟨2, true, Decimal.scientific 3 (-1.5 : Float).abs⟩ := by
  intro f g
  obtain ⟨hsame, hread⟩ := equation_uniquely_readable
  constructor
  · refine (hsame f g).mpr
      (.cons ⟨Iff.rfl, rfl⟩ (.cons ⟨by decide, ?_⟩ (.cons ⟨Iff.rfl, rfl⟩ .nil)))
    exact congrArg (Decimal.scientific 3) (by decide)
  · obtain ⟨ts, hts, -, hterms⟩ := hread f
    have hnegative : decide ((-1.5 : Float) < 0) = true := by decide
    refine ⟨ts, hts, ?_⟩
    rw [hterms 0 (-1.5) rfl, hnegative]
    rfl

end GrowthCurve.Fit
