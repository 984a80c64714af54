import Mathlib
import GrowthCurve.Sample.Series
import GrowthCurve.Proofs.Binary.Sums
import GrowthCurve.Proofs.Polynomial.Distinct

/-!
# Classes of equal numbers

Doubles that are no NaN fall into classes of equal numbers, and a class may hold
two bit patterns: both zeros are one number. What is counted among abscissae are
these classes. Input sizes become doubles of the same count as long as each is
kept exactly; larger ones may fall together, but never apart.
-/

namespace GrowthCurve.Polynomial

open Binary (place)

/-- A double that is a number. -/
abbrev Number : Type := {x : Float // x.isNaN = false}

namespace Number

/-- Numbers are the same if they compare as equal. -/
def same : Setoid Number where
  r x y := (x.1 == y.1) = true
  iseqv :=
    { refl := fun x => Binary.beq_iff.mpr ⟨x.2, x.2, rfl⟩
      symm := fun {x y} h => Binary.beq_iff.mpr ⟨y.2, x.2, (Binary.beq_iff.mp h).2.2.symm⟩
      trans := fun {x _ z} h h' => Binary.beq_iff.mpr
        ⟨x.2, z.2, (Binary.beq_iff.mp h).2.2.trans (Binary.beq_iff.mp h').2.2⟩ }

/-- The place of a class in the order. -/
def classPlace : Quotient same → ℤ ×ₗ ℤ ×ₗ ℤ :=
  Quotient.lift (fun x => place x.1) fun _ _ h => (Binary.beq_iff.mp h).2.2

theorem classPlace_injective : Function.Injective classPlace := by
  rintro ⟨x⟩ ⟨y⟩ h
  exact Quotient.sound (Binary.beq_iff.mpr ⟨x.2, y.2, h⟩)

/-- The classes of the elements of a list. -/
def classes (xs : List Number) : Set (Quotient same) :=
  Quotient.mk same '' {x | x ∈ xs}

end Number

open Number (classes classPlace)

/-! ## Classes in a list -/

variable {xs ys : List Number}

/-- Abscissae are counted by their classes. -/
theorem distinctCount_eq_ncard_classes (xs : List Number) :
    distinctCount (xs.map Subtype.val) = (classes xs).ncard := by
  have hnumbers : ∀ x ∈ xs.map Subtype.val, x.isNaN = false := by
    rw [List.forall_mem_map]
    exact fun x _ => x.2
  have hplaces : classPlace '' classes xs = ((xs.map Subtype.val).map place).toFinset := by
    ext p
    simp only [classes, Set.image_image, List.coe_toFinset, Set.mem_image, Set.mem_ofPred_eq,
      List.map_map, List.mem_map]
    rfl
  rw [distinctCount_eq_card_map (keyed_place hnumbers), ← Set.ncard_coe_finset, ← hplaces,
    Set.ncard_image_of_injective _ Number.classPlace_injective]

/-- Neither the order nor the repetition of elements is seen in the count. -/
theorem distinctCount_congr (h : ∀ x, x ∈ xs ↔ x ∈ ys) :
    distinctCount (xs.map Subtype.val) = distinctCount (ys.map Subtype.val) := by
  have hsame : {x | x ∈ xs} = {x | x ∈ ys} := Set.ext h
  rw [distinctCount_eq_ncard_classes, distinctCount_eq_ncard_classes, classes, hsame, classes]

/-! ## Sizes as abscissae -/

variable {s : Series}

theorem isNaN_of_mem_xs (s : Series) : ∀ x ∈ s.xs, x.isNaN = false := by
  intro x hx
  obtain ⟨n, -, rfl⟩ := List.mem_map.mp hx
  exact (Binary.roundsTo_toFloat n).isNaN_eq_false

/-- The places of the abscissae are those of the sizes. -/
theorem distinctCount_xs (s : Series) :
    distinctCount s.xs = (s.inputSizes.toFinset.image fun n => place n.toFloat).card := by
  rw [distinctCount_eq_card_map (keyed_place (isNaN_of_mem_xs s))]
  congr 1
  ext p
  simp [Series.xs]

/-- Sizes that are kept exactly stay apart. -/
theorem toFloat_place_inj {m n : UInt64} (hm : m.toNat ≤ 2 ^ 53) (hn : n.toNat ≤ 2 ^ 53)
    (h : place m.toFloat = place n.toFloat) : m = n := by
  have hfinite (k : UInt64) := (Binary.below_toFloat k).isFinite
  have hnumber (k : UInt64) := (Binary.roundsTo_toFloat k).isNaN_eq_false
  have hle : ∀ {k l : UInt64}, k.toNat ≤ 2 ^ 53 → l.toNat ≤ 2 ^ 53 →
      place k.toFloat = place l.toFloat → k.toNat ≤ l.toNat := by
    intro k l hk hl heq
    have hvalue := (Binary.le_iff_value (hfinite k) (hfinite l)).mp
      (Binary.le_iff.mpr ⟨hnumber k, hnumber l, heq.le⟩)
    rw [Binary.value_toFloat hk, Binary.value_toFloat hl] at hvalue
    exact_mod_cast hvalue
  exact UInt64.toNat_inj.mp (le_antisymm (hle hm hn h) (hle hn hm h.symm))

/-- **The distinct count counts values**: it is the number of classes of equal numbers,
so that neither order nor repetition matters, and zeros of either sign count once.
Among sizes up to `2 ^ 53` it is the number of different sizes, and it is never greater
than that, since larger sizes may fall together as doubles. -/
theorem distinctCount_counts_values :
    (∀ xs : List Number,
      distinctCount (xs.map Subtype.val) = (classes xs).ncard ∧
      (∀ ys : List Number, ys.Perm xs →
        distinctCount (ys.map Subtype.val) = distinctCount (xs.map Subtype.val)) ∧
      ∀ ys : List Number, ys ⊆ xs →
        distinctCount ((ys ++ xs).map Subtype.val) = distinctCount (xs.map Subtype.val)) ∧
    ∀ s : Series,
      ((∀ n ∈ s.inputSizes, n.toNat ≤ 2 ^ 53) →
        distinctCount s.xs = s.inputSizes.toFinset.card) ∧
      distinctCount s.xs ≤ s.inputSizes.toFinset.card := by
  refine ⟨fun xs => ⟨distinctCount_eq_ncard_classes xs, ?_, ?_⟩, fun s => ⟨?_, ?_⟩⟩
  · intro ys hperm
    exact distinctCount_congr fun x => hperm.mem_iff
  · intro ys hsubset
    refine distinctCount_congr fun x => ?_
    rw [List.mem_append, or_iff_right_of_imp fun hx => hsubset hx]
  · intro hsizes
    rw [distinctCount_xs]
    apply Finset.card_image_of_injOn
    intro m hm n hn
    exact toFloat_place_inj (hsizes m (List.mem_toFinset.mp hm))
      (hsizes n (List.mem_toFinset.mp hn))
  · rw [distinctCount_xs]
    exact Finset.card_image_le

/-- Two zeros and an infinity are two numbers, in any order. The last size that is
kept exactly stays apart from a small one, but not from the next size. -/
theorem distinctCount_counts_values_zeros :
    let zero : Number := ⟨0, by decide⟩
    let minusZero : Number := ⟨-0.0, by decide⟩
    let infinite : Number := ⟨1.0 / 0.0, by decide⟩
    let exact : Series := ⟨⟨"a.csv"⟩, [9007199254740992, 7, 9007199254740992], [1, 2, 3], none⟩
    let rounded : Series := ⟨⟨"a.csv"⟩, [9007199254740992, 9007199254740993], [1, 2], none⟩
    (classes [zero, infinite, minusZero]).ncard = 2 ∧
    distinctCount ([infinite, minusZero, zero].map Subtype.val) = 2 ∧
    distinctCount ([infinite, zero, zero, infinite, minusZero].map Subtype.val) = 2 ∧
    distinctCount exact.xs = 2 ∧ distinctCount rounded.xs = 1 ∧ distinctCount rounded.xs ≤ 2 := by
  intro zero minusZero infinite exact rounded
  have hcount : distinctCount ([zero, infinite, minusZero].map Subtype.val) = 2 := by
    rw [distinctCount_eq_length_eraseDups (by decide)]
    decide
  have hrounded : distinctCount rounded.xs = 1 := by
    rw [distinctCount_eq_length_eraseDups (isNaN_of_mem_xs rounded)]
    decide
  obtain ⟨hlists, hseries⟩ := distinctCount_counts_values
  obtain ⟨hclasses, hperm, hrepeated⟩ := hlists [zero, infinite, minusZero]
  refine ⟨hclasses.symm.trans hcount, ?_, ?_, ?_, hrounded, (hseries rounded).2⟩
  · exact (hperm _ (by decide)).trans hcount
  · exact (hrepeated [infinite, zero] (by decide)).trans hcount
  · have hexact : ∀ n ∈ exact.inputSizes, n.toNat ≤ 2 ^ 53 := by simp [exact]
    exact (hseries exact).1 hexact

end GrowthCurve.Polynomial
