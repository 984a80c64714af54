import Mathlib
import GrowthCurve.Sample.Series

/-!
# Parallel columns

The columns of a series run parallel to the records that it was made of,
whatever mixture of records with and without a derivative that is. One record
without a derivative switches the derivative column off, and so does an empty
list; the other columns do not depend on it.
-/

namespace GrowthCurve.Series

variable {records : List Record} {ds : List Float}

/-! ## One column -/

theorem fullColumn?_eq_some_iff {column : Record → Option Float} {xs : List Float} :
    fullColumn? column records = some xs ↔ records.map column = xs.map some := by
  induction records generalizing xs with
  | nil => cases xs <;> simp [fullColumn?]
  | cons r rest ih =>
      cases xs with
      | nil =>
          rw [fullColumn?]
          split <;> simp
      | cons x xs =>
          rw [List.map_cons, List.map_cons, List.cons.injEq, ← ih, fullColumn?]
          split <;> simp_all

theorem fullColumn?_eq_none_iff {column : Record → Option Float} :
    fullColumn? column records = none ↔ ∃ r ∈ records, column r = none := by
  induction records with
  | nil => simp [fullColumn?]
  | cons r rest ih =>
      rw [List.exists_mem_cons_iff, ← ih, fullColumn?]
      cases column r <;> cases fullColumn? column rest <;> simp

theorem length_zeroFirst (xs : List Float) : (zeroFirst xs).length = xs.length := by
  cases xs with
  | nil => rfl
  | cons x rest => rfl

/-! ## The derivative column -/

theorem derivativeColumn_eq_none_iff :
    derivativeColumn records = none ↔
      records = [] ∨ ∃ r ∈ records, r.derivative = none := by
  unfold derivativeColumn
  cases records with
  | nil => simp
  | cons r rest => simp [fullColumn?_eq_none_iff]

theorem derivativeColumn_isSome_iff :
    (derivativeColumn records).isSome ↔
      records ≠ [] ∧ ∀ r ∈ records, r.derivative.isSome := by
  rw [Option.isSome_iff_ne_none, ne_eq, derivativeColumn_eq_none_iff, not_or]
  simp [Option.isSome_iff_ne_none]

/-- A derivative column begins with zero and goes on as recorded. -/
theorem of_derivativeColumn_eq_some (h : derivativeColumn records = some ds) :
    ds.head? = some 0 ∧ ds.tail.map some = records.tail.map Record.derivative := by
  unfold derivativeColumn at h
  cases records with
  | nil => simp at h
  | cons r rest =>
      rw [List.isEmpty_cons, if_neg (by simp), Option.map_eq_some_iff] at h
      obtain ⟨xs, hxs, rfl⟩ := h
      rw [fullColumn?_eq_some_iff] at hxs
      cases xs with
      | nil => simp at hxs
      | cons x xs =>
          rw [List.map_cons, List.map_cons, List.cons.injEq] at hxs
          exact ⟨rfl, hxs.2.symm⟩

theorem length_of_derivativeColumn (h : derivativeColumn records = some ds) :
    ds.length = records.length := by
  unfold derivativeColumn at h
  split_ifs at h
  obtain ⟨column, hcolumn, rfl⟩ := Option.map_eq_some_iff.mp h
  have hlength := congrArg List.length (fullColumn?_eq_some_iff.mp hcolumn)
  rw [List.length_map, List.length_map] at hlength
  rw [length_zeroFirst, hlength]

/-- After the first record each derivative stands at the index of its record. -/
theorem getElem?_of_derivativeColumn (h : derivativeColumn records = some ds) {i : ℕ} {r : Record}
    (hi : 0 < i) (hr : records[i]? = some r) : ds[i]? = r.derivative := by
  obtain ⟨k, rfl⟩ := Nat.exists_eq_succ_of_ne_zero hi.ne'
  have htail := congrArg (·[k]?) (of_derivativeColumn_eq_some h).2
  simp only [List.getElem?_map, List.getElem?_tail] at htail
  rw [Nat.succ_eq_add_one] at hr ⊢
  rw [hr, Option.map_some] at htail
  cases hd : ds[k + 1]? with
  | none =>
      rw [hd] at htail
      cases htail
  | some d =>
      rw [hd, Option.map_some] at htail
      exact Option.some.inj htail

/-! ## All columns -/

/-- **Columns run parallel to the records**: sizes and times are those of the records,
in order. The derivatives are there exactly if there are records and all have one;
they are as many as the records, begin with zero and are those of the records from
the second on. So one record without a derivative takes all of them away. -/
theorem columns_parallel_to_records (source : Path) (records : List Record) :
    (ofRecords source records).source = source ∧
    (ofRecords source records).inputSizes = records.map Record.inputSize ∧
    (ofRecords source records).times = records.map Record.elapsed ∧
    ((ofRecords source records).derivatives.isSome ↔
      records ≠ [] ∧ ∀ r ∈ records, r.derivative.isSome) ∧
    ∀ ds, (ofRecords source records).derivatives = some ds →
      ds.length = records.length ∧ ds[0]? = some 0 ∧
      ∀ i r, 0 < i → records[i]? = some r → ds[i]? = r.derivative := by
  refine ⟨rfl, rfl, rfl, derivativeColumn_isSome_iff, fun ds hds => ?_⟩
  have hhead := (of_derivativeColumn_eq_some hds).1
  rw [List.head?_eq_getElem?] at hhead
  exact ⟨length_of_derivativeColumn hds, hhead, fun _ _ => getElem?_of_derivativeColumn hds⟩

/-- A derivative of the first record is passed over, and one that the second record
lacks switches the column off. -/
theorem columns_parallel_to_records_mixed :
    let full : List Record := [⟨1, 0.5, some 7⟩, ⟨2, 1.5, some 1⟩, ⟨4, 2, some 0.25⟩]
    let mixed : List Record := [⟨1, 0.5, some 7⟩, ⟨2, 1.5, none⟩, ⟨4, 2, some 0.25⟩]
    (ofRecords ⟨"a.csv"⟩ full).derivatives = some [0, 1, 0.25] ∧
    [0, 1, (0.25 : Float)][2]? = some 0.25 ∧
    (ofRecords ⟨"a.csv"⟩ mixed).derivatives = none ∧
    (ofRecords ⟨"a.csv"⟩ mixed).inputSizes = [1, 2, 4] := by
  intro full mixed
  obtain ⟨-, -, -, -, hfull⟩ := columns_parallel_to_records ⟨"a.csv"⟩ full
  obtain ⟨-, hsizes, -, hmixed, -⟩ := columns_parallel_to_records ⟨"a.csv"⟩ mixed
  have hlacking : ¬ ∀ r ∈ mixed, r.derivative.isSome := fun hall =>
    absurd (hall ⟨2, 1.5, none⟩ (by simp [mixed])) (by decide)
  refine ⟨rfl, (hfull _ rfl).2.2 2 ⟨4, 2, some 0.25⟩ (by decide) rfl, ?_, hsizes⟩
  rw [← Option.not_isSome_iff_eq_none, hmixed]
  exact fun hboth => hlacking hboth.2

end GrowthCurve.Series
