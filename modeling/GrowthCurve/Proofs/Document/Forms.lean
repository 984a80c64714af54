import Mathlib
import GrowthCurve.Report.Document
import GrowthCurve.Proofs.Outcome

/-!
# Reading back what was written into a document

A decoder gives back a value that was put into a document as it stands. A form
takes the entries of a table one after the other, each known key once.
-/

namespace GrowthCurve

namespace Decode

@[simp] theorem real_real (x : Float) : real (.real x) = .ok x := rfl

@[simp] theorem text_text (s : String) : text (.text s) = .ok s := rfl

theorem list_ofReals (xs : List Float) : list real (.ofReals xs) = .ok xs := by
  have hitems : ∀ ys : List Float, (ys.map Document.real).mapM real = .ok ys := by
    intro ys
    induction ys with
    | nil => rfl
    | cons y ys ih =>
        rw [List.map_cons, List.mapM_cons, ih]
        rfl
  refine Except.bind_eq_ok_iff.mpr ⟨xs, hitems xs, ?_⟩
  exact Except.bind_eq_ok_iff.mpr ⟨(), rfl, rfl⟩

theorem size_integer {n : ℕ} (h : n < 2 ^ 64) : size (.integer n) = .ok n := by
  have hrange : 0 ≤ (n : Int) ∧ (n : Int) ≤ (2 ^ 64 - 1 : ℕ) := by omega
  show (if 0 ≤ (n : Int) ∧ (n : Int) ≤ (2 ^ 64 - 1 : ℕ) then Except.ok (n : Int).toNat
    else Except.error Fault.mismatch) = Except.ok n
  rw [if_pos hrange]
  rfl

end Decode

theorem FormField.put_of {σ α : Type} {name : String} {needed : Bool} {decode : Decoder α}
    {set : α → σ → σ} {d : Document} {value : α} (h : decode d = .ok value) (s : σ) :
    (FormField.of name needed decode set).put d s = .ok (set value s) := by
  unfold FormField.of
  simp only [h]
  rfl

theorem FormField.put_of_error {σ α : Type} {name : String} {needed : Bool} {decode : Decoder α}
    {set : α → σ → σ} {d : Document} {fault : Fault} (h : decode d = .error fault) (s : σ) :
    (FormField.of name needed decode set).put d s = .error fault := by
  unfold FormField.of
  simp only [h]
  rfl

theorem FormField.exists_of_put {σ α : Type} {name : String} {needed : Bool} {decode : Decoder α}
    {set : α → σ → σ} {d : Document} {s s' : σ}
    (h : (FormField.of name needed decode set).put d s = .ok s') :
    ∃ value, decode d = .ok value ∧ s' = set value s := by
  obtain ⟨value, hvalue, heq⟩ := Except.map_eq_ok_iff.mp h
  exact ⟨value, hvalue, heq.symm⟩

/-- The values that a list or a table holds. -/
def Document.parts : Document → List Document
  | .list items _ => items
  | .table entries _ => entries.map fun entry => entry.2
  | _ => []

namespace Form

variable {σ : Type}

/-- A known key that was not seen before puts its value. -/
theorem putEntries_known {f : Form σ} {x : FormField σ} {seen : List String} {key : String}
    {d : Document} {rest : List (Option String × Document)} {s s' : σ}
    (hkey : f.field? key = some x) (hnew : key ∉ seen) (hput : x.put d s = .ok s') :
    f.putEntries seen ((some key, d) :: rest) s = f.putEntries (key :: seen) rest s' := by
  simp only [putEntries, hkey, if_neg hnew, hput]
  rfl

/-- A known key whose value is refused ends the reading. -/
theorem putEntries_refused {f : Form σ} {x : FormField σ} {seen : List String} {key : String}
    {d : Document} {rest : List (Option String × Document)} {s : σ} {fault : Fault}
    (hkey : f.field? key = some x) (hnew : key ∉ seen) (hput : x.put d s = .error fault) :
    f.putEntries seen ((some key, d) :: rest) s = .error fault := by
  simp only [putEntries, hkey, if_neg hnew, hput]
  rfl

/-- A table without fault gives the record that its entries put together, if
no needed key is missing. -/
theorem decode_ofEntries {f : Form σ} {entries : List (String × Document)} {seen : List String}
    {s : σ}
    (hput : f.putEntries [] (entries.map fun e => (some e.1, e.2)) f.start = .ok (s, seen))
    (hneeded : (f.fields.all fun x => !x.needed || seen.contains x.name) = true) :
    f.decode (.ofEntries entries) = .ok s := by
  refine Except.bind_eq_ok_iff.mpr ⟨(s, seen), hput, ?_⟩
  refine Except.bind_eq_ok_iff.mpr ⟨(), rfl, ?_⟩
  exact if_pos hneeded

theorem decode_ofEntries_error {f : Form σ} {entries : List (String × Document)} {fault : Fault}
    (hput : f.putEntries [] (entries.map fun e => (some e.1, e.2)) f.start = .error fault) :
    f.decode (.ofEntries entries) = .error fault :=
  Except.bind_eq_error_iff.mpr (.inl hput)

/-! What every field keeps, a form keeps. -/

section Invariant

variable {f : Form σ} {P : σ → Prop}

theorem field?_mem {key : String} {x : FormField σ} (h : f.field? key = some x) :
    x ∈ f.fields :=
  List.mem_of_find?_eq_some h

theorem invariant_of_putEntries {entries : List (Option String × Document)}
    (hput : ∀ x ∈ f.fields, ∀ entry ∈ entries, ∀ s s', P s → x.put entry.2 s = .ok s' → P s')
    {seen : List String} {s : σ} {result : σ × List String} (hs : P s)
    (h : f.putEntries seen entries s = .ok result) : P result.1 := by
  induction entries generalizing seen s with
  | nil =>
      cases h
      exact hs
  | cons entry rest ih =>
      obtain ⟨key, d⟩ := entry
      have hrest := fun x hx entry hentry => hput x hx entry (List.mem_cons_of_mem _ hentry)
      cases key with
      | none => cases h
      | some key =>
          unfold putEntries at h
          split at h
          case h_1 =>
            split at h
            case h_1 => cases h
            case h_2 => exact ih hrest hs h
          case h_2 x hx =>
            split at h
            case isTrue => cases h
            case isFalse =>
              obtain ⟨s', hs', h⟩ := Except.bind_eq_ok_iff.mp h
              have hnext := hput x (field?_mem hx) _ List.mem_cons_self s s' hs hs'
              exact ih hrest hnext h

theorem invariant_of_putItems {fields : List (FormField σ)} {items : List Document}
    (hput : ∀ x ∈ fields, ∀ d ∈ items, ∀ s s', P s → x.put d s = .ok s' → P s')
    {s : σ} {result : σ × List (FormField σ) × List Document} (hs : P s)
    (h : putItems fields items s = .ok result) : P result.1 := by
  induction fields generalizing items s with
  | nil =>
      cases h
      exact hs
  | cons x fields ih =>
      cases items with
      | nil =>
          cases h
          exact hs
      | cons d rest =>
          obtain ⟨s', hs', h⟩ := Except.bind_eq_ok_iff.mp h
          have hnext := hput x List.mem_cons_self d List.mem_cons_self s s' hs hs'
          refine ih ?_ hnext h
          intro y hy e he
          exact hput y (List.mem_cons_of_mem _ hy) e (List.mem_cons_of_mem _ he)

theorem invariant_of_decode {d : Document} {s : σ} (hstart : P f.start)
    (hput : ∀ x ∈ f.fields, ∀ part ∈ d.parts, ∀ s s', P s → x.put part s = .ok s' → P s')
    (h : f.decode d = .ok s) : P s := by
  cases d with
  | table entries ending =>
      obtain ⟨⟨s', seen⟩, hentries, h⟩ := Except.bind_eq_ok_iff.mp h
      obtain ⟨-, -, h⟩ := Except.bind_eq_ok_iff.mp h
      have hs' : P s' := by
        refine invariant_of_putEntries ?_ hstart hentries
        exact fun x hx entry hentry => hput x hx entry.2 (List.mem_map_of_mem hentry)
      split at h
      case isTrue =>
        obtain rfl := Except.ok.inj h
        exact hs'
      case isFalse => cases h
  | list items ending =>
      obtain ⟨⟨s', missing, surplus⟩, hitems, h⟩ := Except.bind_eq_ok_iff.mp h
      have hs' : P s' := invariant_of_putItems hput hstart hitems
      have hsame : s' = s := by
        dsimp only at h
        split at h
        case isTrue =>
          obtain ⟨-, -, h⟩ := Except.bind_eq_ok_iff.mp h
          exact Except.ok.inj h
        case isFalse =>
          obtain ⟨-, -, h⟩ := Except.bind_eq_ok_iff.mp h
          split at h
          case isTrue => cases h
          case isFalse => exact Except.ok.inj h
      exact hsame ▸ hs'
  | nothing | truth | integer | real | text | broken => cases h

end Invariant

end Form

namespace Fit

/-- What a document keeps of a fit. -/
def withoutCurve {α : Type} (f : Fit α) : Fit α :=
  { f with curve := none }

/-- Reading a fit from its document gives it back without its scaled polynomial. -/
theorem decode_toDocument {f : Fit Float} (h : f.degree < 2 ^ 64) :
    form.decode f.toDocument = .ok f.withoutCurve := by
  have hdegree := Decode.size_integer h
  have hcoefficients := Decode.list_ofReals f.coefficients
  have hpredicted := Decode.list_ofReals f.predicted
  have hscore := Decode.real_real f.rSquared
  have hentries : form.putEntries []
      [(some "degree", .integer f.degree), (some "coefficients", .ofReals f.coefficients),
        (some "predicted", .ofReals f.predicted), (some "r_squared", .real f.rSquared)]
      form.start = .ok (f.withoutCurve, ["r_squared", "predicted", "coefficients", "degree"]) := by
    rw [Form.putEntries_known rfl (by simp) (FormField.put_of hdegree _),
      Form.putEntries_known rfl (by simp) (FormField.put_of hcoefficients _),
      Form.putEntries_known rfl (by simp) (FormField.put_of hpredicted _),
      Form.putEntries_known rfl (by simp) (FormField.put_of hscore _)]
    rfl
  exact Form.decode_ofEntries hentries rfl

end Fit

end GrowthCurve
