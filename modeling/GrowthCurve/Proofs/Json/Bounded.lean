import Mathlib
import GrowthCurve.Json.Reader
import GrowthCurve.Proofs.Binary.Range
import GrowthCurve.Proofs.Outcome

/-!
# No text is read as an infinite number

Whatever a text holds, its reals are finite and its whole numbers have 64 bits.
A decimal beyond all doubles is a fault, and dividing by a power of ten never
overflows.
-/

namespace GrowthCurve

/-- Its reals are finite, and its whole numbers have 64 bits with a sign beside. -/
inductive Document.Bounded : Document → Prop where
  | nothing : Bounded .nothing
  | truth {value : Bool} : Bounded (.truth value)
  | integer {n : Int} (size : n.natAbs < 2 ^ 64) : Bounded (.integer n)
  | real {x : Float} (finite : x.isFinite = true) : Bounded (.real x)
  | text {s : String} : Bounded (.text s)
  | list {items : List Document} {ending : Ending} (items_bounded : ∀ d ∈ items, Bounded d) :
      Bounded (.list items ending)
  | table {entries : List (Option String × Document)} {ending : Ending}
      (entries_bounded : ∀ entry ∈ entries, Bounded entry.2) : Bounded (.table entries ending)
  | broken {asked : Fault} {passed : Option Fault} : Bounded (.broken asked passed)

/-! ## Numbers out of a bounded document -/

namespace Decode

theorem isFinite_of_real {d : Document} (hd : d.Bounded) {x : Float} (h : real d = .ok x) :
    x.isFinite = true := by
  cases hd with
  | integer hsize =>
      obtain rfl := Except.ok.inj h
      exact (Binary.below_ofInt hsize).isFinite
  | real hfinite =>
      obtain rfl := Except.ok.inj h
      exact hfinite
  | nothing | truth | text | list | table | broken => cases h

theorem isFinite_of_mapM {items : List Document} (hitems : ∀ d ∈ items, d.Bounded)
    {xs : List Float} (h : items.mapM real = .ok xs) : ∀ x ∈ xs, x.isFinite = true := by
  induction items generalizing xs with
  | nil =>
      cases h
      exact nofun
  | cons d rest ih =>
      rw [List.mapM_cons] at h
      obtain ⟨x, hx, h⟩ := Except.bind_eq_ok_iff.mp h
      obtain ⟨ys, hys, h⟩ := Except.bind_eq_ok_iff.mp h
      obtain rfl := Except.ok.inj h
      have hfirst := isFinite_of_real (hitems d List.mem_cons_self) hx
      have hrest := ih (fun e he => hitems e (List.mem_cons_of_mem d he)) hys
      exact List.forall_mem_cons.mpr ⟨hfirst, hrest⟩

theorem isFinite_of_list {d : Document} (hd : d.Bounded) {xs : List Float}
    (h : list real d = .ok xs) : ∀ x ∈ xs, x.isFinite = true := by
  cases hd with
  | list hitems =>
      obtain ⟨values, hvalues, h⟩ := Except.bind_eq_ok_iff.mp h
      obtain ⟨-, -, h⟩ := Except.bind_eq_ok_iff.mp h
      obtain rfl := Except.ok.inj h
      exact isFinite_of_mapM hitems hvalues
  | nothing | truth | integer | real | text | table | broken => cases h

theorem le_of_natural {limit n : ℕ} {d : Document} (h : natural limit d = .ok n) : n ≤ limit := by
  unfold natural at h
  split at h
  case h_1 =>
    split at h
    case isTrue hrange =>
      obtain rfl := Except.ok.inj h
      omega
    case isFalse => cases h
  case h_2 => cases h

theorem lt_of_size {n : ℕ} {d : Document} (h : size d = .ok n) : n < 2 ^ 64 :=
  Nat.lt_of_le_of_lt (le_of_natural h) (by decide)

end Decode

namespace Json

open Binary (Below atLeastOne)

/-! ## Numbers -/

theorem atLeastOne_powerOfTen {k : ℕ} (h : k ≤ 308) : atLeastOne (powerOfTen k) = true := by
  have hlength : (toString 1).length = 1 := rfl
  have hsign : decide ((k : Int) < 0) = false := by simp
  unfold powerOfTen Decimal.ofDecimal
  rw [if_neg (by decide), hlength, if_neg (by omega), if_neg (by omega), hsign]
  exact Binary.atLeastOne_ofScientific h

theorem below_zero : Below 1024 0 :=
  (Binary.below_ofNat (show 0 < 2 ^ 64 by decide)).mono (by decide)

/-- A significand of 64 bits times a power of ten is finite, if it is anything. -/
theorem below_of_scale? {m : ℕ} {exponent : Int} {x : Float} (hm : m < 2 ^ 64)
    (h : scale? m exponent = some x) : Below 1024 x := by
  have hf := Binary.below_ofNat hm
  unfold scale? at h
  dsimp only at h
  split at h
  case isTrue hpositive =>
    split at h
    case isTrue hsmall =>
      have hpower := atLeastOne_powerOfTen (show exponent.toNat ≤ 308 by omega)
      split at h
      case isTrue => cases h
      case isFalse hfinite =>
        obtain rfl := Option.some.inj h
        have hproduct := Binary.mul_of_isFinite hf.isFinite (Binary.isFinite_of_atLeastOne hpower)
        exact hproduct.resolve_left hfinite
    case isFalse =>
      split at h
      case isTrue =>
        obtain rfl := Option.some.inj h
        exact below_zero
      case isFalse => cases h
  case isFalse hnegative =>
    split at h
    case isTrue hsmall =>
      obtain rfl := Option.some.inj h
      have hpower := atLeastOne_powerOfTen (show exponent.natAbs ≤ 308 by omega)
      exact (hf.div hpower (by decide) (by decide)).mono (by decide)
    case isFalse =>
      split at h
      case isTrue hmiddle =>
        obtain rfl := Option.some.inj h
        have hgreatest := atLeastOne_powerOfTen (show 308 ≤ 308 from le_rfl)
        have hpower := atLeastOne_powerOfTen (show exponent.natAbs - 308 ≤ 308 by omega)
        have hfirst := hf.div hgreatest (by decide) (by decide)
        exact (hfirst.div hpower (by decide) (by decide)).mono (by decide)
      case isFalse =>
        obtain rfl := Option.some.inj h
        exact below_zero

theorem absorb_lt {m : ℕ} (cs : List Char) (hm : m < 2 ^ 64) : (absorb m cs).1 < 2 ^ 64 := by
  induction cs generalizing m with
  | nil => exact hm
  | cons c rest ih =>
      unfold absorb
      dsimp only
      split
      case isTrue hnext => exact ih hnext
      case isFalse => exact hm

theorem significand_lt (p : NumberParts) : p.significand.1 < 2 ^ 64 :=
  absorb_lt _ (absorb_lt _ (by decide))

theorem below_of_magnitude? {p : NumberParts} {x : Float} (h : p.magnitude? = some x) :
    Below 1024 x := by
  have hm := significand_lt p
  unfold NumberParts.magnitude? at h
  dsimp only at h
  split at h
  case h_1 => exact below_of_scale? hm h
  case h_2 =>
    split at h
    case isTrue => exact below_of_scale? hm h
    case isFalse =>
      split at h
      case isTrue =>
        obtain rfl := Option.some.inj h
        exact below_zero
      case isFalse => cases h

theorem isFinite_of_real? {p : NumberParts} {x : Float} (h : p.real? = some x) :
    x.isFinite = true := by
  obtain ⟨y, hy, rfl⟩ := Option.map_eq_some_iff.mp h
  have hbelow := below_of_magnitude? hy
  split
  case isTrue => exact (hbelow.neg (by decide) (by decide)).isFinite
  case isFalse => exact hbelow.isFinite

theorem natAbs_of_integer? {p : NumberParts} {n : Int} (h : p.integer? = some n) :
    n.natAbs < 2 ^ 64 := by
  have hpower : Nat.pow 2 63 < 2 ^ 64 := by decide
  unfold NumberParts.integer? at h
  dsimp only at h
  split at h
  case isTrue =>
    split at h
    case isTrue =>
      split at h
      case isTrue hsize =>
        obtain rfl := Option.some.inj h
        omega
      case isFalse => cases h
    case isFalse =>
      split at h
      case isTrue hsize =>
        obtain rfl := Option.some.inj h
        exact hsize
      case isFalse => cases h
  case isFalse => cases h

theorem bounded_document (p : NumberParts) : p.document.Bounded := by
  unfold NumberParts.document
  split
  case h_1 n hn => exact .integer (natAbs_of_integer? hn)
  case h_2 =>
    split
    case h_1 x hx => exact .real (isFinite_of_real? hx)
    case h_2 => exact .broken

theorem bounded_readNumber (cs : List Char) : (readNumber cs).1.Bounded := by
  unfold readNumber
  split
  case h_1 parts rest _ => exact bounded_document parts
  case h_2 => exact .broken

/-! ## Documents -/

theorem bounded_readName {value : Document} (h : value.Bounded) (name cs : List Char) :
    (readName value name cs).1.Bounded := by
  induction name generalizing cs with
  | nil => exact h
  | cons n name ih =>
      cases cs with
      | nil => exact .broken
      | cons c rest =>
          unfold readName
          split
          case isTrue => exact ih rest
          case isFalse => exact .broken

section Parts

variable {item : List Char → Scan Document}

theorem bounded_readItems (hitem : ∀ cs, (item cs).1.Bounded) (fuel : ℕ) (cs : List Char) :
    ∀ d ∈ (readItems item fuel cs).1.1, d.Bounded := by
  induction fuel generalizing cs with
  | zero => exact nofun
  | succ fuel ih =>
      have hfirst := hitem cs
      unfold readItems
      split
      case h_1 d hd =>
        rw [hd] at hfirst
        exact List.forall_mem_singleton.mpr hfirst
      case h_2 d rest hd =>
        rw [hd] at hfirst
        split
        case h_1 => exact List.forall_mem_singleton.mpr hfirst
        case h_2 => exact List.forall_mem_cons.mpr ⟨hfirst, ih _⟩
        case h_3 => exact List.forall_mem_singleton.mpr hfirst

theorem bounded_readEntryValue (hitem : ∀ cs, (item cs).1.Bounded) (cs : List Char) :
    (readEntryValue item cs).1.Bounded := by
  unfold readEntryValue
  split
  case h_1 rest _ => exact hitem rest
  case h_2 => exact .broken

theorem bounded_readEntries (hitem : ∀ cs, (item cs).1.Bounded) (fuel : ℕ) (cs : List Char) :
    ∀ entry ∈ (readEntries item fuel cs).1.1, entry.2.Bounded := by
  induction fuel generalizing cs with
  | zero => exact nofun
  | succ fuel ih =>
      unfold readEntries
      split
      case h_2 => exact nofun
      case h_1 =>
        split
        case h_1 =>
          split
          case isTrue => exact nofun
          case isFalse => exact List.forall_mem_singleton.mpr .broken
        case h_2 key rest _ =>
          have hvalue := bounded_readEntryValue hitem rest
          split
          case h_1 d hd =>
            rw [hd] at hvalue
            exact List.forall_mem_singleton.mpr hvalue
          case h_2 d after hd =>
            rw [hd] at hvalue
            split
            case h_1 => exact List.forall_mem_singleton.mpr hvalue
            case h_2 => exact List.forall_mem_cons.mpr ⟨hvalue, ih _⟩
            case h_3 => exact List.forall_mem_singleton.mpr hvalue

end Parts

theorem bounded_readValue (depth : ℕ) (cs : List Char) : (readValue depth cs).1.Bounded := by
  induction depth generalizing cs with
  | zero => exact .broken
  | succ depth ih =>
      unfold readValue
      split
      case h_1 => exact .broken
      case h_2 => exact bounded_readName .nothing _ _
      case h_3 => exact bounded_readName .truth _ _
      case h_4 => exact bounded_readName .truth _ _
      case h_5 =>
        split
        case h_1 => exact .text
        case h_2 => exact .broken
        case h_3 => exact .broken
      case h_6 =>
        split
        case h_1 => exact .list nofun
        case h_2 => exact .list nofun
        case h_3 => exact .list (bounded_readItems ih _ _)
      case h_7 =>
        split
        case h_1 => exact .table nofun
        case h_2 => exact .table nofun
        case h_3 => exact .table (bounded_readEntries ih _ _)
      case h_8 =>
        split
        case isTrue => exact bounded_readNumber _
        case isFalse => exact .broken

/-- The document of any text is bounded. -/
theorem bounded_read (cs : List Char) : (read cs).1.Bounded :=
  bounded_readValue _ cs

theorem exists_bounded_of_decode {α : Type} {decoder : Decoder α} {text : String} {a : α}
    (h : decode decoder text = .ok a) : ∃ d : Document, d.Bounded ∧ decoder d = .ok a := by
  unfold decode at h
  obtain ⟨value, hvalue, hrest⟩ := Except.bind_eq_ok_iff.mp h
  have heq : value = a := by
    split at hrest
    case h_1 => exact Except.ok.inj hrest
    case h_2 =>
      split at hrest
      case isTrue => exact Except.ok.inj hrest
      case isFalse => cases hrest
  exact ⟨(read text.toList).1, bounded_read _, heq ▸ hvalue⟩

end Json

end GrowthCurve
