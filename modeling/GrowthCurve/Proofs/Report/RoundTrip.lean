import Mathlib
import GrowthCurve.Proofs.Document.Forms
import GrowthCurve.Proofs.Json.Bounded
import GrowthCurve.Proofs.Json.Writing

/-!
# Reports that are written and read again

A report comes back as it is if its numbers are finite. A number that is not is
written as nothing, which no number is read from. That the digits of a finite
number are read back as this number is asked of each number of the report.
-/

namespace GrowthCurve

theorem exists_infinite_or_forall_finite (xs : List Float) :
    (∃ x ∈ xs, x.isFinite = false) ∨ ∀ x ∈ xs, x.isFinite = true := by
  by_cases h : ∃ x ∈ xs, x.isFinite = false
  · exact Or.inl h
  · refine Or.inr fun x hx => ?_
    by_contra hx'
    exact h ⟨x, hx, by simpa using hx'⟩

namespace Json

theorem reread_ofReals {xs : List Float} (h : ReadBack xs)
    (hfinite : ∀ x ∈ xs, x.isFinite = true) : reread (.ofReals xs) = .ofReals xs := by
  unfold Document.ofReals
  rw [reread_ofItems, List.map_map]
  congr 1
  apply List.map_congr_left
  exact fun x hx => reread_of_isFinite h hx (hfinite x hx)

/-- A list that holds a number that is not finite is refused there. -/
theorem list_reread_ofReals {xs : List Float} (h : ReadBack xs)
    (hinfinite : ∃ x ∈ xs, x.isFinite = false) :
    Decode.list Decode.real (reread (.ofReals xs)) = .error .mismatch := by
  have hitems : ((xs.map Document.real).map reread).mapM Decode.real = .error .mismatch := by
    induction xs with
    | nil =>
        obtain ⟨x, hx, -⟩ := hinfinite
        cases hx
    | cons x rest ih =>
        rw [List.map_cons, List.map_cons, List.mapM_cons]
        by_cases hx : x.isFinite = true
        · have hrest : ∃ y ∈ rest, y.isFinite = false := by
            obtain ⟨y, hy, hyinfinite⟩ := hinfinite
            rcases List.mem_cons.mp hy with rfl | hy
            · rw [hx] at hyinfinite
              cases hyinfinite
            · exact ⟨y, hy, hyinfinite⟩
          have ih := ih (fun y hy => h y (List.mem_cons_of_mem x hy)) hrest
          rw [reread_of_isFinite h List.mem_cons_self hx, Decode.real_real, Except.ok_bind, ih]
          rfl
        · rw [reread_of_not_isFinite (by simpa using hx)]
          rfl
  unfold Document.ofReals
  rw [reread_ofItems]
  exact Except.bind_eq_error_iff.mpr (.inl hitems)

end Json

/-! ## Fits -/

namespace FitSummary

def reals (s : FitSummary) : List Float :=
  s.coefficients ++ [s.rSquared]

theorem reread_toDocument {s : FitSummary} (hdegree : s.degree < 2 ^ 64) (hcode : ReadBack s.reals)
    (hfinite : ∀ x ∈ s.reals, x.isFinite = true) :
    Json.reread s.toDocument = s.toDocument := by
  have hcoefficients : Json.reread (.ofReals s.coefficients) = .ofReals s.coefficients := by
    apply Json.reread_ofReals
    · exact fun x hx => hcode x (List.mem_append_left _ hx)
    · exact fun x hx => hfinite x (List.mem_append_left _ hx)
  have hscore : Json.reread (.real s.rSquared) = .real s.rSquared := by
    have hmem : s.rSquared ∈ s.reals := List.mem_append_right _ (List.mem_singleton_self _)
    exact Json.reread_of_isFinite hcode hmem (hfinite _ hmem)
  unfold toDocument
  rw [Json.reread_ofEntries]
  simp only [List.map_cons, List.map_nil, Json.reread_integer hdegree, hcoefficients, hscore]
  rfl

theorem decode_toDocument {s : FitSummary} (hdegree : s.degree < 2 ^ 64) :
    form.decode s.toDocument = .ok s := by
  have hdegree := Decode.size_integer hdegree
  have hcoefficients := Decode.list_ofReals s.coefficients
  have hscore := Decode.real_real s.rSquared
  have hequation := Decode.text_text s.equation
  have hentries : form.putEntries []
      [(some "degree", .integer s.degree), (some "coefficients", .ofReals s.coefficients),
        (some "r_squared", .real s.rSquared), (some "equation", .text s.equation)]
      form.start = .ok (s, ["equation", "r_squared", "coefficients", "degree"]) := by
    rw [Form.putEntries_known rfl (by simp) (FormField.put_of hdegree _),
      Form.putEntries_known rfl (by simp) (FormField.put_of hcoefficients _),
      Form.putEntries_known rfl (by simp) (FormField.put_of hscore _),
      Form.putEntries_known rfl (by simp) (FormField.put_of hequation _)]
    rfl
  exact Form.decode_ofEntries hentries rfl

/-- The first number that is not finite ends the reading. -/
theorem decode_reread_of_not_isFinite {s : FitSummary} (hdegree : s.degree < 2 ^ 64)
    (hcode : ReadBack s.reals) (hinfinite : ∃ x ∈ s.reals, x.isFinite = false) :
    form.decode (Json.reread s.toDocument) = .error .mismatch := by
  have hsize := Decode.size_integer hdegree
  unfold toDocument
  rw [Json.reread_ofEntries]
  apply Form.decode_ofEntries_error
  simp only [List.map_cons, List.map_nil, Json.reread_integer hdegree]
  rw [Form.putEntries_known rfl (by simp) (FormField.put_of hsize _)]
  have hcode' : ReadBack s.coefficients := fun x hx => hcode x (List.mem_append_left _ hx)
  rcases exists_infinite_or_forall_finite s.coefficients with hcoefficients | hfinite
  · have hlist := Json.list_reread_ofReals hcode' hcoefficients
    exact Form.putEntries_refused rfl (by simp) (FormField.put_of_error hlist _)
  · have hscore : s.rSquared.isFinite = false := by
      obtain ⟨x, hx, hx'⟩ := hinfinite
      rcases List.mem_append.mp hx with hx | hx
      · exact absurd (hfinite x hx) (by simp [hx'])
      · rwa [List.mem_singleton.mp hx] at hx'
    have hlist := Decode.list_ofReals s.coefficients
    have hrefused : Decode.real .nothing = .error .mismatch := rfl
    rw [Json.reread_ofReals hcode' hfinite, Json.reread_of_not_isFinite hscore,
      Form.putEntries_known rfl (by simp) (FormField.put_of hlist _)]
    exact Form.putEntries_refused rfl (by simp) (FormField.put_of_error hrefused _)

/-- A fit that may be missing is refused as well: what is there is a table. -/
theorem optional_reread_of_not_isFinite {s : FitSummary} (hdegree : s.degree < 2 ^ 64)
    (hcode : ReadBack s.reals) (hinfinite : ∃ x ∈ s.reals, x.isFinite = false) :
    Decode.optional form.decode (Json.reread s.toDocument) = .error .mismatch := by
  have hrefused := decode_reread_of_not_isFinite hdegree hcode hinfinite
  unfold toDocument at hrefused ⊢
  rw [Json.reread_ofEntries] at hrefused ⊢
  exact Except.map_eq_error_iff.mpr hrefused

end FitSummary

/-! ## Reports -/

namespace Report

/-- The numbers of a report, the time fit before the derivative fit. -/
def reals (r : Report) : List Float :=
  r.timeFit.reals ++ (r.derivativeFit.map FitSummary.reals).getD []

/-- Its whole numbers have 64 bits. -/
structure Sized (r : Report) : Prop where
  samples : r.samples < 2 ^ 64
  time : r.timeFit.degree < 2 ^ 64
  derivative : ∀ s ∈ r.derivativeFit, s.degree < 2 ^ 64

theorem timeReals_subset {r : Report} {x : Float} (hx : x ∈ r.timeFit.reals) : x ∈ r.reals :=
  List.mem_append_left _ hx

theorem derivativeReals_subset {r : Report} {s : FitSummary} (hs : r.derivativeFit = some s)
    {x : Float} (hx : x ∈ s.reals) : x ∈ r.reals := by
  apply List.mem_append_right
  rw [hs]
  exact hx

theorem reread_toDocument {r : Report} (hsize : r.Sized) (hcode : ReadBack r.reals)
    (hfinite : ∀ x ∈ r.reals, x.isFinite = true) :
    Json.reread r.toDocument = r.toDocument := by
  have htime : Json.reread r.timeFit.toDocument = r.timeFit.toDocument :=
    FitSummary.reread_toDocument hsize.time (fun x hx => hcode x (timeReals_subset hx))
      (fun x hx => hfinite x (timeReals_subset hx))
  unfold toDocument
  rw [Json.reread_ofEntries]
  cases hd : r.derivativeFit with
  | none =>
      simp only [Option.map_none, Option.toList_none, List.append_nil, List.map_cons,
        List.map_nil, Json.reread_integer hsize.samples, htime]
      rfl
  | some s =>
      have hderivative : Json.reread s.toDocument = s.toDocument :=
        FitSummary.reread_toDocument (hsize.derivative s hd)
          (fun x hx => hcode x (derivativeReals_subset hd hx))
          (fun x hx => hfinite x (derivativeReals_subset hd hx))
      simp only [Option.map_some, Option.toList_some, List.cons_append, List.nil_append,
        List.map_cons, List.map_nil, Json.reread_integer hsize.samples, htime, hderivative]
      rfl

/-- Before its fits, every report is read in the same way. -/
theorem putEntries_samples {r : Report} (hsize : r.Sized)
    (rest : List (Option String × Document)) :
    form.putEntries []
      ((some "source", .text r.source) :: (some "samples", .integer r.samples) :: rest)
        form.start =
      form.putEntries ["samples", "source"] rest
        { form.start with source := r.source, samples := r.samples } := by
  have hsource := Decode.text_text r.source
  have hsamples := Decode.size_integer hsize.samples
  rw [Form.putEntries_known rfl (by simp) (FormField.put_of hsource _),
    Form.putEntries_known rfl (by simp) (FormField.put_of hsamples _)]

/-- Before its derivative fit as well. -/
theorem putEntries_time {r : Report} (hsize : r.Sized)
    (rest : List (Option String × Document)) :
    form.putEntries []
      ((some "source", .text r.source) :: (some "samples", .integer r.samples) ::
        (some "time_fit", r.timeFit.toDocument) :: rest) form.start =
      form.putEntries ["time_fit", "samples", "source"] rest { r with derivativeFit := none } := by
  have htime := FitSummary.decode_toDocument hsize.time
  rw [putEntries_samples hsize, Form.putEntries_known rfl (by simp) (FormField.put_of htime _)]
  rfl

theorem decode_toDocument {r : Report} (hsize : r.Sized) : form.decode r.toDocument = .ok r := by
  cases hd : r.derivativeFit with
  | none =>
      have hentries : form.putEntries []
          ((some "source", .text r.source) :: (some "samples", .integer r.samples) ::
            (some "time_fit", r.timeFit.toDocument) :: []) form.start =
          .ok (r, ["time_fit", "samples", "source"]) := by
        rw [putEntries_time hsize, ← hd]
        rfl
      unfold toDocument
      rw [hd]
      exact Form.decode_ofEntries hentries rfl
  | some s =>
      have hderivative : Decode.optional FitSummary.form.decode s.toDocument = .ok (some s) :=
        Except.map_eq_ok_iff.mpr ⟨s, FitSummary.decode_toDocument (hsize.derivative s hd), rfl⟩
      have hentries : form.putEntries []
          ((some "source", .text r.source) :: (some "samples", .integer r.samples) ::
            (some "time_fit", r.timeFit.toDocument) ::
            (some "derivative_fit", s.toDocument) :: []) form.start =
          .ok (r, ["derivative_fit", "time_fit", "samples", "source"]) := by
        rw [putEntries_time hsize,
          Form.putEntries_known rfl (by simp) (FormField.put_of hderivative _)]
        dsimp only
        rw [← hd]
        rfl
      unfold toDocument
      rw [hd]
      exact Form.decode_ofEntries hentries rfl

/-- A time fit that is refused ends the reading before the derivative fit is looked at. -/
theorem decode_reread_of_time {r : Report} (hsize : r.Sized) (hcode : ReadBack r.reals)
    (hinfinite : ∃ x ∈ r.timeFit.reals, x.isFinite = false) :
    form.decode (Json.reread r.toDocument) = .error .mismatch := by
  have hrefused := FitSummary.decode_reread_of_not_isFinite hsize.time
    (fun x hx => hcode x (timeReals_subset hx)) hinfinite
  unfold toDocument
  rw [Json.reread_ofEntries]
  apply Form.decode_ofEntries_error
  simp only [List.cons_append, List.nil_append, List.map_cons, Json.reread_integer hsize.samples]
  rw [show Json.reread (.text r.source) = .text r.source from rfl, putEntries_samples hsize]
  exact Form.putEntries_refused rfl (by simp) (FormField.put_of_error hrefused _)

theorem decode_reread_of_derivative {r : Report} {s : FitSummary} (hsize : r.Sized)
    (hcode : ReadBack r.reals) (htime : ∀ x ∈ r.timeFit.reals, x.isFinite = true)
    (hd : r.derivativeFit = some s) (hinfinite : ∃ x ∈ s.reals, x.isFinite = false) :
    form.decode (Json.reread r.toDocument) = .error .mismatch := by
  have hrefused := FitSummary.optional_reread_of_not_isFinite (hsize.derivative s hd)
    (fun x hx => hcode x (derivativeReals_subset hd hx)) hinfinite
  have hread := FitSummary.reread_toDocument hsize.time
    (fun x hx => hcode x (timeReals_subset hx)) htime
  unfold toDocument
  rw [hd, Json.reread_ofEntries]
  apply Form.decode_ofEntries_error
  simp only [List.cons_append, List.nil_append, List.map_cons, List.map_nil, Option.map_some,
    Option.toList_some, Json.reread_integer hsize.samples, hread]
  rw [show Json.reread (.text r.source) = .text r.source from rfl, putEntries_time hsize]
  exact Form.putEntries_refused rfl (by simp) (FormField.put_of_error hrefused _)

/-- The first fit with a number that is not finite ends the reading. -/
theorem decode_reread_of_not_isFinite {r : Report} (hsize : r.Sized) (hcode : ReadBack r.reals)
    (hinfinite : ∃ x ∈ r.reals, x.isFinite = false) :
    form.decode (Json.reread r.toDocument) = .error .mismatch := by
  rcases exists_infinite_or_forall_finite r.timeFit.reals with htime | hfinite
  · exact decode_reread_of_time hsize hcode htime
  · obtain ⟨x, hx, hx'⟩ := hinfinite
    rcases List.mem_append.mp hx with hx | hx
    · exact absurd (hfinite x hx) (by simp [hx'])
    · cases hd : r.derivativeFit with
      | none =>
          rw [hd] at hx
          cases hx
      | some s =>
          rw [hd] at hx
          exact decode_reread_of_derivative hsize hcode hfinite hd ⟨x, hx, hx'⟩

end Report

/-! ## Reports that were read -/

theorem Document.Bounded.parts {d : Document} (h : d.Bounded) : ∀ part ∈ d.parts, part.Bounded := by
  cases h with
  | list hitems => exact hitems
  | table hentries =>
      intro part hpart
      obtain ⟨entry, hentry, rfl⟩ := List.mem_map.mp hpart
      exact hentries entry hentry
  | nothing | truth | integer | real | text | broken => exact nofun

/-- The numbers of a fit are finite, and its degree has 64 bits. -/
structure FitSummary.Bounded (s : FitSummary) : Prop where
  degree : s.degree < 2 ^ 64
  coefficients : ∀ x ∈ s.coefficients, x.isFinite = true
  score : s.rSquared.isFinite = true

theorem FitSummary.bounded_start : form.start.Bounded :=
  ⟨by decide, nofun, (Binary.below_ofNat (show 0 < 2 ^ 64 by decide)).isFinite⟩

theorem FitSummary.bounded_of_decode {d : Document} {s : FitSummary} (hd : d.Bounded)
    (h : form.decode d = .ok s) : s.Bounded := by
  refine Form.invariant_of_decode bounded_start ?_ h
  intro x hx part hpart s s' hs hput
  have hpart := hd.parts part hpart
  rcases List.mem_cons.mp hx with rfl | hx
  · obtain ⟨degree, hdegree, rfl⟩ := FormField.exists_of_put hput
    exact ⟨Decode.lt_of_size hdegree, hs.coefficients, hs.score⟩
  rcases List.mem_cons.mp hx with rfl | hx
  · obtain ⟨coefficients, hcoefficients, rfl⟩ := FormField.exists_of_put hput
    exact ⟨hs.degree, Decode.isFinite_of_list hpart hcoefficients, hs.score⟩
  rcases List.mem_cons.mp hx with rfl | hx
  · obtain ⟨score, hscore, rfl⟩ := FormField.exists_of_put hput
    exact ⟨hs.degree, hs.coefficients, Decode.isFinite_of_real hpart hscore⟩
  · obtain rfl := List.mem_singleton.mp hx
    obtain ⟨equation, -, rfl⟩ := FormField.exists_of_put hput
    exact ⟨hs.degree, hs.coefficients, hs.score⟩

namespace Report

structure Bounded (r : Report) : Prop where
  samples : r.samples < 2 ^ 64
  time : r.timeFit.Bounded
  derivative : ∀ s ∈ r.derivativeFit, s.Bounded

theorem bounded_of_decode {d : Document} {r : Report} (hd : d.Bounded)
    (h : form.decode d = .ok r) : r.Bounded := by
  have hstart : form.start.Bounded := ⟨by decide, FitSummary.bounded_start, nofun⟩
  refine Form.invariant_of_decode hstart ?_ h
  intro x hx part hpart r r' hr hput
  have hpart := hd.parts part hpart
  rcases List.mem_cons.mp hx with rfl | hx
  · obtain ⟨source, -, rfl⟩ := FormField.exists_of_put hput
    exact ⟨hr.samples, hr.time, hr.derivative⟩
  rcases List.mem_cons.mp hx with rfl | hx
  · obtain ⟨samples, hsamples, rfl⟩ := FormField.exists_of_put hput
    exact ⟨Decode.lt_of_size hsamples, hr.time, hr.derivative⟩
  rcases List.mem_cons.mp hx with rfl | hx
  · obtain ⟨time, htime, rfl⟩ := FormField.exists_of_put hput
    exact ⟨hr.samples, FitSummary.bounded_of_decode hpart htime, hr.derivative⟩
  · obtain rfl := List.mem_singleton.mp hx
    obtain ⟨derivative, hderivative, rfl⟩ := FormField.exists_of_put hput
    refine ⟨hr.samples, hr.time, ?_⟩
    intro s hs
    obtain rfl : derivative = some s := hs
    unfold Decode.optional at hderivative
    split at hderivative
    case h_1 => cases hderivative
    case h_2 =>
      obtain ⟨s', hs', heq⟩ := Except.map_eq_ok_iff.mp hderivative
      obtain rfl := Option.some.inj heq
      exact FitSummary.bounded_of_decode hpart hs'

theorem Bounded.sized {r : Report} (h : r.Bounded) : r.Sized :=
  ⟨h.samples, h.time.degree, fun s hs => (h.derivative s hs).degree⟩

theorem Bounded.isFinite {r : Report} (h : r.Bounded) : ∀ x ∈ r.reals, x.isFinite = true := by
  have hfit : ∀ {s : FitSummary}, s.Bounded → ∀ x ∈ s.reals, x.isFinite = true := by
    intro s hs
    exact List.forall_mem_append.mpr ⟨hs.coefficients, List.forall_mem_singleton.mpr hs.score⟩
  refine List.forall_mem_append.mpr ⟨hfit h.time, ?_⟩
  cases hd : r.derivativeFit with
  | none => exact nofun
  | some s => exact hfit (h.derivative s hd)

theorem ofJson_toJson_of_isFinite {r : Report} (hsize : r.Sized) (hcode : ReadBack r.reals)
    (hfinite : ∀ x ∈ r.reals, x.isFinite = true) : ofJson r.toJson = .ok r := by
  unfold ofJson toJson
  rw [Json.decode_write, reread_toDocument hsize hcode hfinite]
  exact decode_toDocument hsize

theorem ofJson_toJson_of_not_isFinite {r : Report} (hsize : r.Sized) (hcode : ReadBack r.reals)
    (hinfinite : ∃ x ∈ r.reals, x.isFinite = false) : ofJson r.toJson = .error .mismatch := by
  unfold ofJson toJson
  rw [Json.decode_write]
  exact decode_reread_of_not_isFinite hsize hcode hinfinite

theorem bounded_of_ofJson {text : String} {r : Report} (h : ofJson text = .ok r) : r.Bounded := by
  obtain ⟨d, hd, hdecode⟩ := Json.exists_bounded_of_decode h
  exact bounded_of_decode hd hdecode

/-- **Reports come back from their JSON**: the text of every report is JSON by a grammar
of its own. A report comes back from it if and only if its numbers are finite, and
otherwise it is refused: the first one that is not finite was written as nothing. What
was read has finite numbers only, so that it comes back. -/
theorem toJson_round_trip :
    (∀ r : Report, ∃ d, Json.IsJson d r.toJson) ∧
      (∀ r : Report, r.Sized → ReadBack r.reals →
        (ofJson r.toJson = .ok r ↔ ∀ x ∈ r.reals, x.isFinite = true) ∧
          ((∃ x ∈ r.reals, x.isFinite = false) → ofJson r.toJson = .error .mismatch)) ∧
      ∀ (text : String) (r : Report), ofJson text = .ok r → ReadBack r.reals →
        ofJson r.toJson = .ok r := by
  refine ⟨?_, ?_, ?_⟩
  · intro r
    exact ⟨_, Json.isJson_write .indented r.toDocument⟩
  · intro r hsize hcode
    refine ⟨⟨?_, ofJson_toJson_of_isFinite hsize hcode⟩, ofJson_toJson_of_not_isFinite hsize hcode⟩
    intro hback x hx
    by_contra hx'
    have hrefused := ofJson_toJson_of_not_isFinite hsize hcode ⟨x, hx, by simpa using hx'⟩
    rw [hback] at hrefused
    cases hrefused
  · intro text r hread hcode
    have hbounded := bounded_of_ofJson hread
    exact ofJson_toJson_of_isFinite hbounded.sized hcode hbounded.isFinite

/-- Quotes, a control character and the greatest count. -/
def awkward : Report where
  source := "runs/\"a\\b\".csv\n\x01π"
  samples := 2 ^ 64 - 1
  timeFit := ⟨2, [0.5, -3.0, 1e-7], 0.25, "T(n) = 0.5"⟩
  derivativeFit := some ⟨1, [], 1.0, ""⟩

/-- A report with a score that is no number. -/
def withoutScore : Report where
  source := "flat.csv"
  samples := 3
  timeFit := ⟨0, [2.0], 0.0 / 0.0, "T(n) = 2"⟩
  derivativeFit := none

/-- Keys in another order, one that is not known and a whole number for a real. -/
def foreignText : String :=
  "\x7b\"samples\": 4, \"note\": [1e5], \"source\": \"\", \"time_fit\": " ++
    "\x7b\"degree\": 0, \"coefficients\": [5e-1], \"r_squared\": 1, \"equation\": \"T\"\x7d\x7d"

theorem toJson_round_trip_three_reports :
    (∃ d, Json.IsJson d awkward.toJson) ∧ ofJson awkward.toJson = .ok awkward ∧
      ofJson withoutScore.toJson = .error .mismatch ∧
      ofJson (toJson ⟨"", 4, ⟨0, [0.5], 1, "T"⟩, none⟩) =
        .ok ⟨"", 4, ⟨0, [0.5], 1, "T"⟩, none⟩ := by
  have hsize : awkward.Sized := ⟨by decide, by decide, by rintro s ⟨⟩; decide⟩
  have hcode : ReadBack awkward.reals := by
    unfold ReadBack
    decide +kernel
  have hfinite : ∀ x ∈ awkward.reals, x.isFinite = true := by decide +kernel
  have hsize' : withoutScore.Sized := ⟨by decide, by decide, by rintro s ⟨⟩⟩
  have hcode' : ReadBack withoutScore.reals := by
    unfold ReadBack
    decide +kernel
  have hinfinite : ∃ x ∈ withoutScore.reals, x.isFinite = false := by decide +kernel
  have hread : ofJson foreignText = .ok ⟨"", 4, ⟨0, [0.5], 1, "T"⟩, none⟩ := by decide +kernel
  have hcode'' : ReadBack (Report.reals ⟨"", 4, ⟨0, [0.5], 1, "T"⟩, none⟩) := by
    unfold ReadBack
    decide +kernel
  exact ⟨toJson_round_trip.1 awkward, (toJson_round_trip.2.1 awkward hsize hcode).1.mpr hfinite,
    (toJson_round_trip.2.1 withoutScore hsize' hcode').2 hinfinite,
    toJson_round_trip.2.2 foreignText _ hread hcode''⟩

end Report

end GrowthCurve
