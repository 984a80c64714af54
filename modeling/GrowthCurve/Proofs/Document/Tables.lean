import Mathlib
import GrowthCurve.Proofs.Document.Forms

/-!
# Tables in any order

A table changes each field of a record by the one value under its key, if there
is one. Since fields are set independently of each other, the order of the
entries does not count, and keys that the record does not know change nothing.
-/

namespace GrowthCurve

/-- The values under a key. -/
def valuesUnder (key : String) (entries : List (String × Document)) : List Document :=
  (entries.filter fun entry => entry.1 = key).map fun entry => entry.2

theorem valuesUnder_cons_self (key : String) (d : Document) (rest : List (String × Document)) :
    valuesUnder key ((key, d) :: rest) = d :: valuesUnder key rest := by
  simp [valuesUnder]

theorem valuesUnder_cons_of_ne {key other : String} (h : other ≠ key) (d : Document)
    (rest : List (String × Document)) :
    valuesUnder key ((other, d) :: rest) = valuesUnder key rest := by
  simp [valuesUnder, h]

theorem valuesUnder_cons_eq_nil {key other : String} {d : Document}
    {rest : List (String × Document)} (h : valuesUnder key ((other, d) :: rest) = []) :
    other ≠ key ∧ valuesUnder key rest = [] := by
  have hne : other ≠ key := by
    rintro rfl
    rw [valuesUnder_cons_self] at h
    cases h
  exact ⟨hne, (valuesUnder_cons_of_ne hne d rest).symm.trans h⟩

/-- A field may be left out, or its value is given once. -/
inductive Given {α : Type} (Stands : α → Document → Prop) (key : String)
    (entries : List (String × Document)) : Option α → Prop where
  | absent (none_under : valuesUnder key entries = []) : Given Stands key entries none
  | once {value : α} {d : Document} (under : valuesUnder key entries = [d])
      (stands : Stands value d) : Given Stands key entries (some value)

namespace Document

theorem passedFault?_list {items : List Document} {ending : Ending} :
    (list items ending).passedFault? = none ↔
      (∀ d ∈ items, d.passedFault? = none) ∧ ending.fault? = none := by
  have hitems : passedFaultOfItems? items = none ↔ ∀ d ∈ items, d.passedFault? = none := by
    induction items with
    | nil => exact ⟨fun _ => nofun, fun _ => rfl⟩
    | cons d rest ih =>
        rw [List.forall_mem_cons, ← ih]
        exact Option.orElse_eq_none _ _
  rw [← hitems]
  exact Option.orElse_eq_none _ _

theorem passedFault?_ofEntries {entries : List (String × Document)} :
    (ofEntries entries).passedFault? = none ↔ ∀ entry ∈ entries, entry.2.passedFault? = none := by
  have hentries : passedFaultOfEntries? (entries.map fun e => (some e.1, e.2)) = none ↔
      ∀ entry ∈ entries, entry.2.passedFault? = none := by
    induction entries with
    | nil => exact ⟨fun _ => nofun, fun _ => rfl⟩
    | cons entry rest ih =>
        rw [List.forall_mem_cons, ← ih]
        exact Option.orElse_eq_none _ _
  rw [← hentries]
  exact (Option.orElse_eq_none _ _).trans (and_iff_left rfl)

end Document

/-- What the entries of a table do to one field: nothing, or what its only value says. -/
structure FormField.Updates {σ : Type} (x : FormField σ) (entries : List (String × Document))
    (update : σ → σ) : Prop where
  absent : valuesUnder x.name entries = [] → update = id
  present : ∀ d rest, valuesUnder x.name entries = d :: rest →
    rest = [] ∧ ∀ s, x.put d s = .ok (update s)

namespace FormField

variable {σ : Type} {x : FormField σ} {entries : List (String × Document)} {update : σ → σ}

theorem updates_id (h : valuesUnder x.name entries = []) : x.Updates entries id := by
  refine ⟨fun _ => rfl, ?_⟩
  intro d rest hpresent
  rw [h] at hpresent
  cases hpresent

theorem Updates.of_cons {key : String} {d : Document} (h : x.Updates ((key, d) :: entries) update)
    (hne : key ≠ x.name) : x.Updates entries update := by
  obtain ⟨habsent, hpresent⟩ := h
  rw [valuesUnder_cons_of_ne hne] at habsent hpresent
  exact ⟨habsent, hpresent⟩

end FormField

theorem mem_of_mem_valuesUnder {key : String} {entries : List (String × Document)} {d : Document}
    (h : d ∈ valuesUnder key entries) : ∃ entry ∈ entries, entry.2 = d := by
  obtain ⟨entry, hentry, rfl⟩ := List.mem_map.mp h
  exact ⟨entry, List.mem_of_mem_filter hentry, rfl⟩

/-- A field takes the value that is given, and is left as it is without one. -/
theorem Given.updates {σ α : Type} {Stands : α → Document → Prop} {name : String}
    {entries : List (String × Document)} {o : Option α} (h : Given Stands name entries o)
    (hfault : ∀ entry ∈ entries, entry.2.passedFault? = none) {needed : Bool} {decode : Decoder α}
    (hdecode : ∀ a d, Stands a d → d.passedFault? = none → decode d = .ok a)
    (get : σ → α) {set : α → σ → σ} (hget : ∀ s, set (get s) s = s) :
    (FormField.of name needed decode set).Updates entries fun s => set (o.getD (get s)) s := by
  cases h with
  | absent hnone =>
      refine ⟨fun _ => funext hget, ?_⟩
      intro d rest hunder
      have hunder : valuesUnder name entries = d :: rest := hunder
      rw [hnone] at hunder
      cases hunder
  | @once a d hunder hstands =>
      have hd : d ∈ valuesUnder name entries := by
        rw [hunder]
        exact List.mem_singleton_self d
      obtain ⟨entry, hentry, rfl⟩ := mem_of_mem_valuesUnder hd
      constructor
      · intro hnone
        have hnone : valuesUnder name entries = [] := hnone
        rw [hunder] at hnone
        cases hnone
      · intro d' rest hunder'
        have hunder' : valuesUnder name entries = d' :: rest := hunder'
        rw [hunder] at hunder'
        obtain ⟨rfl, rfl⟩ := List.cons.inj hunder'
        have hvalue := hdecode a _ hstands (hfault entry hentry)
        exact ⟨rfl, fun s => FormField.put_of hvalue s⟩

/-- What stands for something stands for what is made of it. -/
theorem Given.map {α β : Type} {Stands : α → Document → Prop} {key : String}
    {entries : List (String × Document)} {o : Option α} (h : Given Stands key entries o)
    (f : α → β) : Given (fun b d => ∃ a, Stands a d ∧ f a = b) key entries (o.map f) := by
  cases h with
  | absent hnone => exact .absent hnone
  | once hunder hstands => exact .once hunder ⟨_, hstands, rfl⟩

namespace Form

variable {σ : Type}

/-- What the entries of a table do to each field. -/
def Updates (f : Form σ) (entries : List (String × Document)) (update : String → σ → σ) : Prop :=
  ∀ x ∈ f.fields, x.Updates entries (update x.name)

/-- Fields are set independently of each other. -/
def Independent (update : String → σ → σ) : Prop :=
  ∀ key other s, update key (update other s) = update other (update key s)

/-- The record after all updates. -/
def updated (update : String → σ → σ) (fields : List (FormField σ)) (s : σ) : σ :=
  fields.foldl (fun s x => update x.name s) s

theorem updated_congr {update update' : String → σ → σ} {fields : List (FormField σ)}
    (h : ∀ x ∈ fields, update x.name = update' x.name) (s : σ) :
    updated update fields s = updated update' fields s := by
  induction fields generalizing s with
  | nil => rfl
  | cons x rest ih =>
      have hrest := ih fun y hy => h y (List.mem_cons_of_mem x hy)
      show updated update rest (update x.name s) = updated update' rest (update' x.name s)
      rw [hrest, h x List.mem_cons_self]

theorem updated_of_id {update : String → σ → σ} {fields : List (FormField σ)}
    (h : ∀ x ∈ fields, update x.name = id) (s : σ) : updated update fields s = s := by
  induction fields with
  | nil => rfl
  | cons x rest ih =>
      have hrest := ih fun y hy => h y (List.mem_cons_of_mem x hy)
      show updated update rest (update x.name s) = s
      rw [h x List.mem_cons_self]
      exact hrest

theorem Independent.update {update : String → σ → σ} (h : Independent update) (key : String) :
    Independent (Function.update update key id) := by
  intro a b s
  by_cases ha : a = key
  · subst ha
    simp
  · by_cases hb : b = key
    · subst hb
      simp
    · simp only [Function.update_of_ne ha, Function.update_of_ne hb]
      exact h a b s

/-- One update may be made before all others. -/
theorem updated_of_mem {update : String → σ → σ} (h : Independent update)
    {fields : List (FormField σ)} (hnames : (fields.map FormField.name).Nodup) {x : FormField σ}
    (hx : x ∈ fields) (s : σ) :
    updated update fields s =
      updated (Function.update update x.name id) fields (update x.name s) := by
  induction fields generalizing s with
  | nil => cases hx
  | cons y rest ih =>
      rw [List.map_cons, List.nodup_cons] at hnames
      rcases List.mem_cons.mp hx with rfl | hx
      · have hrest : ∀ z ∈ rest, update z.name = Function.update update x.name id z.name := by
          intro z hz
          have hne : z.name ≠ x.name := by
            intro heq
            exact hnames.1 (heq ▸ List.mem_map_of_mem hz)
          rw [Function.update_of_ne hne]
        show updated update rest (update x.name s) =
          updated _ rest (Function.update update x.name id x.name (update x.name s))
        rw [Function.update_self, updated_congr hrest]
        rfl
      · -- the update of `x` is moved past the one of `y`, since both are independent
        have hne : y.name ≠ x.name := by
          intro heq
          exact hnames.1 (heq ▸ List.mem_map_of_mem hx)
        show updated update rest (update y.name s) =
          updated _ rest (Function.update update x.name id y.name (update x.name s))
        rw [Function.update_of_ne hne, ih hnames.2 hx, h x.name y.name s]

theorem field?_eq_none {f : Form σ} {key : String} (h : f.field? key = none) :
    ∀ x ∈ f.fields, x.name ≠ key := by
  intro x hx heq
  have hnone := List.find?_eq_none.mp h x hx
  exact hnone (decide_eq_true heq)

theorem name_of_field? {f : Form σ} {key : String} {x : FormField σ} (h : f.field? key = some x) :
    x.name = key := by
  have hfound := List.find?_some h
  exact of_decide_eq_true hfound

theorem Updates.of_cons_unknown {f : Form σ} {key : String} {d : Document}
    {entries : List (String × Document)} {update : String → σ → σ}
    (h : f.Updates ((key, d) :: entries) update) (hkey : f.field? key = none) :
    f.Updates entries update :=
  fun x hx => (h x hx).of_cons (field?_eq_none hkey x hx).symm

/-- Behind the value of a field, nothing is left to do to this field. -/
theorem Updates.of_cons_known {f : Form σ} {x : FormField σ} {d : Document}
    {entries : List (String × Document)} {update : String → σ → σ}
    (h : f.Updates ((x.name, d) :: entries) update) (hnone : valuesUnder x.name entries = []) :
    f.Updates entries (Function.update update x.name id) := by
  intro y hy
  by_cases heq : y.name = x.name
  · rw [heq, Function.update_self]
    exact FormField.updates_id (heq ▸ hnone)
  · rw [Function.update_of_ne heq]
    exact (h y hy).of_cons (Ne.symm heq)

/-- Entries set what is given and nothing else, whatever their order. -/
theorem putEntries_of_updates {f : Form σ} (hnames : (f.fields.map FormField.name).Nodup)
    {entries : List (String × Document)} {update : String → σ → σ}
    (hindependent : Independent update)
    (hupdates : f.Updates entries update)
    (hothers : ∀ entry ∈ entries, f.field? entry.1 = none → entry.2.passedFault? = none)
    {seen : List String} (hseen : ∀ key ∈ seen, valuesUnder key entries = []) (s : σ) :
    ∃ seen', f.putEntries seen (entries.map fun e => (some e.1, e.2)) s =
      .ok (updated update f.fields s, seen') := by
  -- the update changes along the way: behind an entry, it leaves the field of this entry alone
  induction entries generalizing update seen s with
  | nil =>
      refine ⟨seen, ?_⟩
      rw [updated_of_id fun x hx => (hupdates x hx).absent rfl]
      rfl
  | cons entry rest ih =>
      obtain ⟨key, d⟩ := entry
      have hothers' := fun entry hentry => hothers entry (List.mem_cons_of_mem (key, d) hentry)
      have hseen' : ∀ k ∈ seen, key ≠ k ∧ valuesUnder k rest = [] :=
        fun k hk => valuesUnder_cons_eq_nil (hseen k hk)
      cases hkey : f.field? key with
      | none =>
          have hpassed := hothers (key, d) List.mem_cons_self hkey
          obtain ⟨seen', hput⟩ := ih hindependent (hupdates.of_cons_unknown hkey) hothers'
            (fun k hk => (hseen' k hk).2) s
          refine ⟨seen', ?_⟩
          rw [← hput]
          simp only [List.map_cons, putEntries, hkey, hpassed]
      | some x =>
          have hx := field?_mem hkey
          obtain rfl := name_of_field? hkey
          obtain ⟨hnone, hput⟩ := (hupdates x hx).present _ _ (valuesUnder_cons_self x.name d rest)
          have hnew : x.name ∉ seen := fun hmem => (hseen' _ hmem).1 rfl
          have hseen'' : ∀ k ∈ x.name :: seen, valuesUnder k rest = [] :=
            List.forall_mem_cons.mpr ⟨hnone, fun k hk => (hseen' k hk).2⟩
          obtain ⟨seen', hentries⟩ := ih (hindependent.update x.name)
            (hupdates.of_cons_known hnone) hothers' hseen'' (update x.name s)
          refine ⟨seen', ?_⟩
          rw [updated_of_mem hindependent hnames hx, ← hentries, List.map_cons]
          exact putEntries_known hkey hnew (hput s)

/-- A table without fault in which nothing is needed gives the record that its
entries set, on top of the one that has all fields. -/
theorem decode_of_updates {f : Form σ} (hnames : (f.fields.map FormField.name).Nodup)
    (hneeded : ∀ x ∈ f.fields, x.needed = false) {entries : List (String × Document)}
    {update : String → σ → σ} (hindependent : Independent update)
    (hupdates : f.Updates entries update)
    (hfault : (Document.ofEntries entries).passedFault? = none) :
    f.decode (.ofEntries entries) = .ok (updated update f.fields f.start) := by
  have hothers := fun entry hentry (_ : f.field? entry.1 = none) =>
    Document.passedFault?_ofEntries.mp hfault entry hentry
  obtain ⟨seen, hput⟩ :=
    putEntries_of_updates hnames hindependent hupdates hothers (List.forall_mem_nil _) f.start
  apply decode_ofEntries hput
  rw [List.all_eq_true]
  intro x hx
  rw [hneeded x hx]
  rfl

end Form

end GrowthCurve
