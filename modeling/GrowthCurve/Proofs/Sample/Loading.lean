import Mathlib
import GrowthCurve.Viewer
import GrowthCurve.Proofs.Outcome
import GrowthCurve.Proofs.Sample.Parallel

/-!
# Loading result files

What a loaded series is made of, whatever the reader of files does, and which
files load under a reader whose answers are known.
-/

namespace GrowthCurve

variable {σ : Type} {read : FileReader (StateM σ)} {st st' : σ} {path : Path} {s : Series}

namespace Series

/-! ## Columns of one length -/

/-- All columns are as long as there are records. -/
structure Aligned (s : Series) : Prop where
  times : s.times.length = s.size
  derivatives : ∀ ds, s.derivatives = some ds → ds.length = s.size

theorem Aligned.length_xs (s : Series) : s.xs.length = s.size :=
  List.length_map _

theorem aligned_ofRecords (source : Path) (records : List Record) :
    (ofRecords source records).Aligned := by
  have hsize : (ofRecords source records).size = records.length := List.length_map _
  refine ⟨?_, ?_⟩
  · rw [hsize]
    exact List.length_map _
  · intro ds hds
    rw [hsize]
    exact length_of_derivativeColumn hds

theorem aligned_of_read {text : String} (h : Series.read path text = .ok s) : s.Aligned := by
  obtain ⟨records, -, rfl⟩ := Except.map_eq_ok_iff.mp h
  exact aligned_ofRecords path records

/-! ## Any reader -/

/-- Loading is reading the text and then the records in it. -/
theorem run_load_of_text {text : String} (h : (read path).run.run st = (.ok text, st')) :
    (load read path).run.run st =
      ((Series.read path text).mapError (Error.ofMalformed path), st') := by
  unfold load
  rw [ExceptT.run_bind_of_ok (ExceptT.run_adapt_of h _)]
  exact ExceptT.run_ofExcept _ _

theorem run_load_of_unreadable {e : FileError} (h : (read path).run.run st = (.error e, st')) :
    (load read path).run.run st = (.error (.file path e), st') := by
  unfold load
  exact ExceptT.run_bind_of_error (ExceptT.run_adapt_of h _)

/-- A file that does not load is blamed by its name. -/
inductive Unloadable (path : Path) : Error → Prop where
  | file (cause : FileError) : Unloadable path (.file path cause)
  | malformed (m : Malformed) : Unloadable path (.ofMalformed path m)

theorem read_of_load (h : (load read path).run.run st = (.ok s, st')) :
    ∃ text, Series.read path text = .ok s := by
  cases hread : (read path).run.run st with
  | mk r st₁ =>
      cases r with
      | error e =>
          rw [run_load_of_unreadable hread] at h
          cases h
      | ok text =>
          rw [run_load_of_text hread, Prod.mk.injEq, Except.mapError_eq_ok_iff] at h
          exact ⟨text, h.1⟩

theorem aligned_of_load (h : (load read path).run.run st = (.ok s, st')) : s.Aligned := by
  obtain ⟨text, htext⟩ := read_of_load h
  exact aligned_of_read htext

theorem unloadable_of_load {e : Error} (h : (load read path).run.run st = (.error e, st')) :
    Unloadable path e := by
  cases hread : (read path).run.run st with
  | mk r st₁ =>
      cases r with
      | error cause =>
          rw [run_load_of_unreadable hread, Prod.mk.injEq] at h
          obtain rfl := Except.error.inj h.1
          exact .file cause
      | ok text =>
          rw [run_load_of_text hread, Prod.mk.injEq, Except.mapError_eq_error_iff] at h
          obtain ⟨⟨m, -, rfl⟩, -⟩ := h
          exact .malformed m

/-! ## Several files -/

theorem run_loadAll_cons_of_error {e : Error} {rest : List Path}
    (h : (load read path).run.run st = (.error e, st')) :
    (loadAll read (path :: rest)).run.run st = (.error e, st') := by
  rw [loadAll]
  exact ExceptT.run_bind_of_error h

theorem run_loadAll_cons_of_ok {rest : List Path} {r : Except Error (List Series)} {st₁ : σ}
    (h : (load read path).run.run st = (.ok s, st₁))
    (hrest : (loadAll read rest).run.run st₁ = (r, st')) :
    (loadAll read (path :: rest)).run.run st = (r.map (s :: ·), st') := by
  rw [loadAll, ExceptT.run_bind_of_ok h]
  cases r with
  | error e => exact ExceptT.run_bind_of_error hrest
  | ok others => exact ExceptT.run_bind_of_ok hrest

/-- Every series comes from a text, and an error from the file that it names. -/
theorem loadAll_cases (read : FileReader (StateM σ)) (paths : List Path) (st : σ) :
    (∃ series st', (loadAll read paths).run.run st = (.ok series, st') ∧
      ∀ s ∈ series, ∃ path text, Series.read path text = .ok s) ∨
    ∃ path e st', (loadAll read paths).run.run st = (.error e, st') ∧ Unloadable path e := by
  induction paths generalizing st with
  | nil => exact Or.inl ⟨[], st, rfl, by simp⟩
  | cons path rest ih =>
      cases hload : (load read path).run.run st with
      | mk r st₁ =>
          cases r with
          | error e =>
              exact Or.inr ⟨path, e, st₁, run_loadAll_cons_of_error hload,
                unloadable_of_load hload⟩
          | ok s =>
              rcases ih st₁ with ⟨others, st', hrest, hothers⟩ | ⟨blamed, e, st', hrest, he⟩
              · refine Or.inl ⟨s :: others, st', run_loadAll_cons_of_ok hload hrest, ?_⟩
                intro s' hs'
                rcases List.mem_cons.mp hs' with rfl | hs'
                · exact ⟨path, read_of_load hload⟩
                · exact hothers s' hs'
              · exact Or.inr ⟨blamed, e, st', run_loadAll_cons_of_ok hload hrest, he⟩

end Series

/-! ## Known files -/

/-- The reader finds these files and leaves the state as it is. -/
def FileReader.Finds (read : FileReader (StateM σ)) (st : σ)
    (files : Path → Except FileError String) : Prop :=
  ∀ path, (read path).run.run st = (files path, st)

/-- A reader of files that nothing changes meanwhile. -/
def FileReader.ofFiles {m : Type → Type} [Monad m] (files : Path → Except FileError String) :
    FileReader m := fun path =>
  MonadExcept.ofExcept (files path)

theorem FileReader.finds_ofFiles {σ : Type} (files : Path → Except FileError String) (st : σ) :
    FileReader.Finds (.ofFiles files) st files := fun path =>
  ExceptT.run_ofExcept (files path) st

namespace Series

variable {files : Path → Except FileError String}

/-- The file is there, and its text reads as the series. -/
def Loads (files : Path → Except FileError String) (path : Path) (s : Series) : Prop :=
  ∃ text, files path = .ok text ∧ Series.read path text = .ok s

theorem Loads.unique {s' : Series} (h : Loads files path s) (h' : Loads files path s') :
    s = s' := by
  obtain ⟨text, htext, hs⟩ := h
  obtain ⟨text', htext', hs'⟩ := h'
  obtain rfl := Except.ok.inj (htext.symm.trans htext')
  exact Except.ok.inj (hs.symm.trans hs')

theorem aligned_of_loads (h : Loads files path s) : s.Aligned := by
  obtain ⟨text, -, hread⟩ := h
  exact aligned_of_read hread

theorem aligned_of_forall₂_loads {paths : List Path} {series : List Series}
    (h : List.Forall₂ (Loads files) paths series) : ∀ s ∈ series, s.Aligned := by
  induction h with
  | nil => simp
  | cons hs _ ih => exact List.forall_mem_cons.mpr ⟨aligned_of_loads hs, ih⟩

/-- Why a file does not load: it is not there as a text, or the text is no result file. -/
inductive LoadFault (files : Path → Except FileError String) (path : Path) : Error → Prop where
  | unreadable {cause : FileError} (file : files path = .error cause) :
      LoadFault files path (.file path cause)
  | malformed {text : String} {m : Malformed} (file : files path = .ok text)
      (read : Series.read path text = .error m) : LoadFault files path (.ofMalformed path m)

theorem LoadFault.not_loads {e : Error} (h : LoadFault files path e) : ¬ Loads files path s := by
  rintro ⟨text, htext, hread⟩
  cases h with
  | unreadable hfile => cases hfile.symm.trans htext
  | malformed hfile hfault =>
      obtain rfl := Except.ok.inj (hfile.symm.trans htext)
      cases hfault.symm.trans hread

theorem LoadFault.unique {e e' : Error} (h : LoadFault files path e)
    (h' : LoadFault files path e') : e = e' := by
  cases h with
  | unreadable hfile =>
      cases h' with
      | unreadable hfile' => rw [Except.error.inj (hfile.symm.trans hfile')]
      | malformed hfile' _ => cases hfile.symm.trans hfile'
  | malformed hfile hread =>
      cases h' with
      | unreadable hfile' => cases hfile.symm.trans hfile'
      | malformed hfile' hread' =>
          obtain rfl := Except.ok.inj (hfile.symm.trans hfile')
          rw [Except.error.inj (hread.symm.trans hread')]

theorem load_cases (hfinds : read.Finds st files) (path : Path) :
    (∃ s, (load read path).run.run st = (.ok s, st) ∧ Loads files path s) ∨
      ∃ e, (load read path).run.run st = (.error e, st) ∧ LoadFault files path e := by
  cases hfile : files path with
  | error cause =>
      have hrun := (hfinds path).trans (by rw [hfile])
      exact Or.inr ⟨_, run_load_of_unreadable hrun, .unreadable hfile⟩
  | ok text =>
      have hrun := run_load_of_text ((hfinds path).trans (by rw [hfile]))
      cases hread : Series.read path text with
      | error m =>
          rw [hread] at hrun
          exact Or.inr ⟨_, hrun, .malformed hfile hread⟩
      | ok s =>
          rw [hread] at hrun
          exact Or.inl ⟨s, hrun, text, hfile, hread⟩

theorem run_load_of_loads (hfinds : read.Finds st files) (h : Loads files path s) :
    (load read path).run.run st = (.ok s, st) := by
  rcases load_cases hfinds path with ⟨s', hload, hs⟩ | ⟨e, -, hfault⟩
  · rwa [h.unique hs]
  · exact absurd h hfault.not_loads

theorem loads_of_load (hfinds : read.Finds st files)
    (h : (load read path).run.run st = (.ok s, st')) : Loads files path s ∧ st' = st := by
  rcases load_cases hfinds path with ⟨s', hload, hs⟩ | ⟨e, hload, -⟩
  · cases hload.symm.trans h
    exact ⟨hs, rfl⟩
  · cases hload.symm.trans h

theorem not_loads_of_load {e : Error} (hfinds : read.Finds st files)
    (h : (load read path).run.run st = (.error e, st')) :
    (¬ ∃ s, Loads files path s) ∧ st' = st := by
  rcases load_cases hfinds path with ⟨s, hload, -⟩ | ⟨e', hload, hfault⟩
  · cases hload.symm.trans h
  · cases hload.symm.trans h
    exact ⟨fun ⟨s, hs⟩ => hfault.not_loads hs, rfl⟩

theorem exists_forall₂_loads_iff {paths : List Path} :
    (∃ series, List.Forall₂ (Loads files) paths series) ↔
      ∀ path ∈ paths, ∃ s, Loads files path s := by
  induction paths with
  | nil => simp
  | cons path rest ih =>
      rw [List.forall_mem_cons, ← ih]
      constructor
      · rintro ⟨_, _ | ⟨hs, hrest⟩⟩
        exact ⟨⟨_, hs⟩, ⟨_, hrest⟩⟩
      · rintro ⟨⟨s, hs⟩, others, hrest⟩
        exact ⟨s :: others, .cons hs hrest⟩

/-- The fault of the first file that does not load, whatever the files after it hold. -/
inductive FirstFault (files : Path → Except FileError String) : List Path → Error → Prop where
  | here {path : Path} {rest : List Path} {e : Error} (fault : LoadFault files path e) :
      FirstFault files (path :: rest) e
  | later {path : Path} {rest : List Path} {s : Series} {e : Error} (loads : Loads files path s)
      (fault : FirstFault files rest e) : FirstFault files (path :: rest) e

theorem FirstFault.unique {paths : List Path} {e e' : Error} (h : FirstFault files paths e)
    (h' : FirstFault files paths e') : e = e' := by
  induction h with
  | here hfault =>
      cases h' with
      | here hfault' => exact hfault.unique hfault'
      | later hloads _ => exact absurd hloads hfault.not_loads
  | later hloads _ ih =>
      cases h' with
      | here hfault' => exact absurd hloads hfault'.not_loads
      | later _ hfault' => exact ih hfault'

theorem FirstFault.not_forall₂ {paths : List Path} {series : List Series} {e : Error}
    (h : FirstFault files paths e) : ¬ List.Forall₂ (Loads files) paths series := by
  intro hall
  induction h generalizing series with
  | here hfault =>
      obtain _ | ⟨hloads, -⟩ := hall
      exact hfault.not_loads hloads
  | later _ _ ih =>
      obtain _ | ⟨-, hrest⟩ := hall
      exact ih hrest

/-- Known files load in order, up to the first that does not. -/
theorem loadAll_cases_of_finds (hfinds : read.Finds st files) (paths : List Path) :
    (∃ series, (loadAll read paths).run.run st = (.ok series, st) ∧
      List.Forall₂ (Loads files) paths series) ∨
    ∃ e, (loadAll read paths).run.run st = (.error e, st) ∧ FirstFault files paths e := by
  induction paths with
  | nil => exact Or.inl ⟨[], rfl, .nil⟩
  | cons path rest ih =>
      rcases load_cases hfinds path with ⟨s, hload, hs⟩ | ⟨e, hload, hfault⟩
      · rcases ih with ⟨others, hrest, hothers⟩ | ⟨e, hrest, hfault⟩
        · exact Or.inl ⟨s :: others, run_loadAll_cons_of_ok hload hrest, .cons hs hothers⟩
        · exact Or.inr ⟨e, run_loadAll_cons_of_ok hload hrest, .later hs hfault⟩
      · exact Or.inr ⟨e, run_loadAll_cons_of_error hload, .here hfault⟩

theorem loads_of_loadAll {paths : List Path} {series : List Series} (hfinds : read.Finds st files)
    (h : (loadAll read paths).run.run st = (.ok series, st')) :
    List.Forall₂ (Loads files) paths series ∧ st' = st := by
  rcases loadAll_cases_of_finds hfinds paths with ⟨series', hload, hseries⟩ | ⟨e, hload, -⟩
  · cases hload.symm.trans h
    exact ⟨hseries, rfl⟩
  · cases hload.symm.trans h

theorem not_loads_of_loadAll {paths : List Path} {e : Error} (hfinds : read.Finds st files)
    (h : (loadAll read paths).run.run st = (.error e, st')) :
    (¬ ∀ path ∈ paths, ∃ s, Loads files path s) ∧ st' = st := by
  rcases loadAll_cases_of_finds hfinds paths with ⟨series, hload, -⟩ | ⟨e', hload, hfault⟩
  · cases hload.symm.trans h
  · cases hload.symm.trans h
    refine ⟨?_, rfl⟩
    rw [← exists_forall₂_loads_iff]
    rintro ⟨series, hseries⟩
    exact hfault.not_forall₂ hseries

end Series

end GrowthCurve
