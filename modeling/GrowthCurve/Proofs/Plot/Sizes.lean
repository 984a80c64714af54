import Mathlib
import GrowthCurve.Analysis
import GrowthCurve.Proofs.Plot.Drawing
import GrowthCurve.Proofs.Settings.Limits

/-!
# Sizes of figures

Settings bound the sizes of a panel from below only. The width of a figure and
the size of its titles are computed as words, and the drawing halts where there
is no such word.
-/

namespace GrowthCurve.Plot

variable {size : FigureSize} {fuel : ℕ} {panels : List (Panel Float)} {figure : Figure}

/-! ## Computed sizes -/

theorem toNat_of_figureWidth {n : ℕ} {w : UInt32} (h : figureWidth size n = .ok w) :
    w.toNat = size.panelWidth.toNat * (n % 2 ^ 32) := by
  rw [word_eq_ok_iff.mp h, UInt32.toNat_ofNat']

/-- The width of all panels is computed exactly if it is a word. -/
theorem figureWidth_exact_iff (size : FigureSize) (n : ℕ) :
    (∃ w, figureWidth size n = .ok w ∧ w.toNat = size.panelWidth.toNat * n) ↔
      size.panelWidth.toNat * n < 2 ^ 32 := by
  constructor
  · rintro ⟨w, -, hw⟩
    rw [← hw]
    exact w.toNat_lt
  · intro hfits
    have hmod : size.panelWidth.toNat * (n % 2 ^ 32) = size.panelWidth.toNat * n := by
      rcases Nat.eq_zero_or_pos size.panelWidth.toNat with hzero | hpos
      · rw [hzero, Nat.zero_mul, Nat.zero_mul]
      · rw [Nat.mod_eq_of_lt ((Nat.le_mul_of_pos_left n hpos).trans_lt hfits)]
    rw [← hmod] at hfits ⊢
    obtain ⟨w, hw⟩ := exists_figureWidth_iff.mpr hfits
    exact ⟨w, hw, toNat_of_figureWidth hw⟩

/-- So many panels are counted right, so that a width that is no word is noticed. -/
theorem figureWidth_of_large {n : ℕ} (hn : n < 2 ^ 32)
    (hlarge : 2 ^ 32 ≤ size.panelWidth.toNat * n) : figureWidth size n = .error .overflow := by
  refine word_eq_error_iff.mpr ⟨rfl, ?_⟩
  rwa [UInt32.toNat_ofNat', Nat.mod_eq_of_lt hn]

theorem titleFont_exact_iff (size : FigureSize) :
    (∃ w, titleFont size = .ok w ∧ w.toNat = size.fontSize.toNat + 4) ↔
      size.fontSize.toNat + 4 < 2 ^ 32 := by
  rw [← exists_word_iff]
  refine exists_congr fun w => ?_
  unfold titleFont
  rw [word_eq_ok_iff, and_self]

theorem width_of_drawWith (h : drawWith fuel panels size = .ok figure) :
    figureWidth size panels.length = .ok figure.width := by
  obtain ⟨width, fs, hwidth, -, rfl⟩ := layOut_eq_ok_iff.mp (drawWith_eq_ok_iff.mp h).2
  exact hwidth

/-! ## Analyses and comparisons -/

/-- No panel has a title. -/
def Untitled (panels : List (Panel Float)) : Prop :=
  ∀ p ∈ panels, p.title = none

theorem untitled_analysis (s : Series) (fits : SeriesFits) (settings : AnalysisSettings) :
    Untitled (Analysis.panels s fits settings) := by
  unfold Untitled Analysis.panels
  rw [List.forall_mem_cons]
  refine ⟨rfl, ?_⟩
  split
  case h_1 => exact List.forall_mem_singleton.mpr rfl
  case h_2 => exact List.forall_mem_nil _

theorem length_analysis (s : Series) (fits : SeriesFits) (settings : AnalysisSettings) :
    (Analysis.panels s fits settings).length = 1 ∨
      (Analysis.panels s fits settings).length = 2 := by
  unfold Analysis.panels
  split
  case h_1 => exact .inr rfl
  case h_2 => exact .inl rfl

theorem sizesFit_iff_of_untitled (h : Untitled panels) :
    SizesFit size panels ↔ size.panelWidth.toNat * (panels.length % 2 ^ 32) < 2 ^ 32 :=
  ⟨SizesFit.width, fun hwidth => ⟨hwidth, fun p hp htitle => absurd (h p hp) htitle⟩⟩

/-- An analysis has one panel, or two that may be too wide together. -/
theorem sizesFit_analysis_iff (size : FigureSize) (s : Series) (fits : SeriesFits)
    (settings : AnalysisSettings) : SizesFit size (Analysis.panels s fits settings) ↔
      (Analysis.panels s fits settings).length = 1 ∨ size.panelWidth.toNat < 2 ^ 31 := by
  have hword := size.panelWidth.toNat_lt
  rw [sizesFit_iff_of_untitled (untitled_analysis s fits settings)]
  rcases length_analysis s fits settings with hone | htwo
  · rw [hone]
    omega
  · rw [htwo]
    omega

theorem sizesFit_comparison (size : FigureSize) (series : List Series) (labels : List String)
    (axes : AxisLabels) : SizesFit size [Comparison.panel series labels axes] :=
  sizesFit_singleton size rfl

/-- **When sizes are exact**: the width of all panels and the size of a title are
computed exactly if they are words. Accepted panels whose dashes end are drawn, in
a figure of the computed width, if the sizes that they need are words, and else
the drawing halts. An analysis has no titles, so that it needs one panel only or
panels of less than `2 ^ 31` pixels; a comparison has one panel without a title
and always fits. -/
theorem sizes_exact_iff (fuel : ℕ) (size : FigureSize) (hfault : panelsFault? panels = none) :
    ((∃ w, figureWidth size panels.length = .ok w ∧
        w.toNat = size.panelWidth.toNat * panels.length) ↔
      size.panelWidth.toNat * panels.length < 2 ^ 32) ∧
    (panels.length < 2 ^ 32 → 2 ^ 32 ≤ size.panelWidth.toNat * panels.length →
      drawWith fuel panels size = .error (.halted .overflow)) ∧
    ((∃ w, titleFont size = .ok w ∧ w.toNat = size.fontSize.toNat + 4) ↔
      size.fontSize.toNat + 4 < 2 ^ 32) ∧
    ((∀ p ∈ panels, p.DashesEnd fuel) →
      ((∃ figure, drawWith fuel panels size = .ok figure) ↔ SizesFit size panels) ∧
      (drawWith fuel panels size = .error (.halted .overflow) ↔ ¬ SizesFit size panels)) ∧
    (∀ figure, drawWith fuel panels size = .ok figure →
      figureWidth size panels.length = .ok figure.width) ∧
    (∀ s fits settings, panels = Analysis.panels s fits settings → Untitled panels ∧
      (SizesFit size panels ↔ panels.length = 1 ∨ size.panelWidth.toNat < 2 ^ 31)) ∧
    (∀ series labels axes, panels = [Comparison.panel series labels axes] → Untitled panels ∧
      SizesFit size panels) := by
  refine ⟨figureWidth_exact_iff size _, ?_, titleFont_exact_iff size, ?_,
    fun _ => width_of_drawWith, ?_, ?_⟩
  · intro hn hlarge
    unfold drawWith layOut
    rw [hfault, figureWidth_of_large hn hlarge]
    rfl
  · intro hends
    have hdrawn : (∃ figure, drawWith fuel panels size = .ok figure) ↔ SizesFit size panels := by
      rw [exists_drawWith_iff hfault, and_iff_left hends]
    refine ⟨hdrawn, ?_, drawWith_of_not_sizesFit hfault hends⟩
    intro hhalted hfits
    obtain ⟨figure, hfigure⟩ := hdrawn.mpr hfits
    cases hfigure.symm.trans hhalted
  · rintro s fits settings rfl
    exact ⟨untitled_analysis s fits settings, sizesFit_analysis_iff size s fits settings⟩
  · rintro series labels axes rfl
    exact ⟨List.forall_mem_singleton.mpr rfl, sizesFit_comparison size series labels axes⟩

/-- A panel without curves. -/
def blank : Panel Float :=
  ⟨"Input length", "Runtime", none, true, []⟩

/-- Two panels, of the usual size and so wide that they are as wide as a word can
tell together. -/
theorem sizes_exact_iff_two_panels :
    panelsFault? [blank, blank] = none ∧
    (∃ figure, draw [blank, blank] ⟨2147483647, 500, 16⟩ = .ok figure ∧
      figure.width.toNat = 4294967294) ∧
    draw [blank, blank] ⟨2147483648, 500, 16⟩ = .error (.halted .overflow) := by
  have hfault : panelsFault? [blank, blank] = none := by decide
  have hends : ∀ p ∈ [blank, blank], p.DashesEnd cutLimit := by
    intro p hp
    obtain rfl : p = blank := by simpa using hp
    exact Panel.dashesEnd_of_solid (List.forall_mem_nil _)
  have hfits : SizesFit ⟨2147483647, 500, 16⟩ [blank, blank] := by
    refine ⟨by decide, ?_⟩
    intro p hp htitle
    obtain rfl : p = blank := by simpa using hp
    exact absurd rfl htitle
  obtain ⟨-, -, -, hdraws, hwidth, -⟩ := sizes_exact_iff cutLimit ⟨2147483647, 500, 16⟩ hfault
  obtain ⟨figure, hfigure⟩ := (hdraws hends).1.mpr hfits
  refine ⟨hfault, ⟨figure, hfigure, toNat_of_figureWidth (hwidth figure hfigure)⟩, ?_⟩
  exact (sizes_exact_iff cutLimit ⟨2147483648, 500, 16⟩ hfault).2.1 (by decide) (by decide)

/-- Two accepted panels of an accepted size make the drawing halt, since together
they are wider than a word can tell. -/
theorem two_wide_panels_overflow :
    FigureSize.fault? ⟨2147484048, 500, 16⟩ = none ∧ panelsFault? [blank, blank] = none ∧
    figureWidth ⟨2147484048, 500, 16⟩ 2 = .error .overflow ∧
    draw [blank, blank] ⟨2147484048, 500, 16⟩ = .error (.halted .overflow) := by
  refine ⟨by decide, by decide, ?_, ?_⟩
  · exact figureWidth_of_large (by decide) (by decide)
  · unfold draw drawWith layOut
    rfl

end GrowthCurve.Plot
