import Mathlib
import GrowthCurve.Proofs.Toml.Grammar

/-!
# Tables from pairs and sections

Every line looks at and changes what one key of the whole table stands for. So
lines of different keys commute, and the lines of one key can be gathered: they
make the table inside as if they stood alone.
-/

namespace GrowthCurve.Toml

theorem Mixed.mem_iff {α : Type} {as bs cs : List α} (h : Mixed as bs cs) {a : α} :
    a ∈ cs ↔ a ∈ as ∨ a ∈ bs := by
  induction h with
  | nil => simp
  | left _ ih => rw [List.mem_cons, List.mem_cons, ih, or_assoc]
  | right _ ih => rw [List.mem_cons, List.mem_cons, ih, or_left_comm]

theorem Mixed.map {α β : Type} (f : α → β) {as bs cs : List α} (h : Mixed as bs cs) :
    Mixed (as.map f) (bs.map f) (cs.map f) := by
  induction h with
  | nil => exact .nil
  | left _ ih => exact .left ih
  | right _ ih => exact .right ih

theorem mixed_nil {α : Type} (bs : List α) : Mixed [] bs bs := by
  induction bs with
  | nil => exact .nil
  | cons b rest ih => exact .right ih

/-! ## Entries -/

namespace Entries

theorem find?_cons (key : String) (e : String × Node) (rest : Entries) :
    find? key (e :: rest) = if e.1 = key then some e.2 else rest.find? key := by
  unfold find?
  by_cases h : e.1 = key
  · simp [h]
  · simp [h]

theorem find?_append (key : String) (es es' : Entries) :
    find? key (es ++ es') = (es.find? key).or (es'.find? key) := by
  unfold find?
  rw [List.find?_append, Option.map_or]

theorem find?_last_of_ne {key other : String} (h : other ≠ key) (es : Entries) (n : Node) :
    find? key (es ++ [(other, n)]) = es.find? key := by
  rw [find?_append, find?_cons, if_neg h]
  exact Option.or_none

theorem find?_last {key : String} {es : Entries} (h : es.find? key = none) (n : Node) :
    find? key (es ++ [(key, n)]) = some n := by
  rw [find?_append, find?_cons, if_pos rfl, h]
  rfl

theorem replace_cons (key : String) (n : Node) (e : String × Node) (rest : Entries) :
    replace key n (e :: rest) = (if e.1 = key then (key, n) else e) :: replace key n rest :=
  rfl

theorem find?_replace_of_ne {key other : String} (h : other ≠ key) (es : Entries) (n : Node) :
    find? key (es.replace other n) = es.find? key := by
  induction es with
  | nil => rfl
  | cons e rest ih =>
      rw [replace_cons, find?_cons, find?_cons, ih]
      by_cases heq : e.1 = other
      · simp [heq, h]
      · simp [heq]

theorem isSome_find?_replace (key : String) (es : Entries) (n : Node) :
    (find? key (es.replace key n)).isSome = (es.find? key).isSome := by
  induction es with
  | nil => rfl
  | cons e rest ih =>
      rw [replace_cons, find?_cons, find?_cons]
      by_cases heq : e.1 = key
      · simp [heq]
      · simp [heq, ih]

theorem replace_of_none {key : String} {es : Entries} (h : es.find? key = none) (n : Node) :
    es.replace key n = es := by
  induction es with
  | nil => rfl
  | cons e rest ih =>
      rw [find?_cons] at h
      by_cases heq : e.1 = key
      · simp [heq] at h
      · rw [if_neg heq] at h
        rw [replace_cons, if_neg heq, ih h]

theorem replace_append (key : String) (n : Node) (es es' : Entries) :
    replace key n (es ++ es') = es.replace key n ++ es'.replace key n :=
  List.map_append

theorem replace_last {key : String} {es : Entries} (h : es.find? key = none) (n n' : Node) :
    replace key n' (es ++ [(key, n)]) = es ++ [(key, n')] := by
  rw [replace_append, replace_of_none h]
  simp [replace]

theorem replace_comm {key other : String} (h : key ≠ other) (n n' : Node) (es : Entries) :
    (es.replace other n').replace key n = (es.replace key n).replace other n' := by
  unfold replace
  rw [List.map_map, List.map_map]
  apply List.map_congr_left
  intro e _
  by_cases hkey : e.1 = key
  · simp [hkey, h]
  · by_cases hother : e.1 = other
    · simp [hother, h.symm]
    · simp [hkey, hother]

end Entries

/-! ## Changes at one key -/

/-- What a line does at its key: the node that it makes, or what it makes of a node. -/
structure Change where
  key : String
  fresh : Option Node
  reach : Node → Option Node

namespace Change

def run (c : Change) (es : Entries) : Option Entries :=
  match es.find? c.key with
  | none => c.fresh.map fun n => es ++ [(c.key, n)]
  | some n => (c.reach n).map fun n => es.replace c.key n

def runAll (es : Entries) (cs : List Change) : Option Entries :=
  cs.foldlM (fun es c => c.run es) es

def reachAll (n : Node) (cs : List Change) : Option Node :=
  cs.foldlM (fun n c => c.reach n) n

theorem runAll_cons (es : Entries) (c : Change) (cs : List Change) :
    runAll es (c :: cs) = (c.run es).bind fun es => runAll es cs :=
  List.foldlM_cons

theorem runAll_append (es : Entries) (cs cs' : List Change) :
    runAll es (cs ++ cs') = (runAll es cs).bind fun es => runAll es cs' :=
  List.foldlM_append

theorem reachAll_append (n : Node) (cs cs' : List Change) :
    reachAll n (cs ++ cs') = (reachAll n cs).bind fun n => reachAll n cs' :=
  List.foldlM_append

theorem reachAll_singleton (n : Node) (c : Change) : reachAll n [c] = c.reach n :=
  Option.bind_fun_some (c.reach n)

theorem run_of_none {c : Change} {es : Entries} (h : es.find? c.key = none) :
    c.run es = c.fresh.map fun n => es ++ [(c.key, n)] := by
  unfold run
  rw [h]

theorem run_of_some {c : Change} {es : Entries} {n : Node} (h : es.find? c.key = some n) :
    c.run es = (c.reach n).map fun n => es.replace c.key n := by
  unfold run
  rw [h]

/-- Other keys stand for what they stood for. -/
theorem find?_of_run {c : Change} {es es' : Entries} (h : c.run es = some es') {key : String}
    (hne : c.key ≠ key) : es'.find? key = es.find? key := by
  cases hfind : es.find? c.key with
  | none =>
      rw [run_of_none hfind] at h
      obtain ⟨n, -, rfl⟩ := Option.map_eq_some_iff.mp h
      exact Entries.find?_last_of_ne hne es n
  | some n =>
      rw [run_of_some hfind] at h
      obtain ⟨n', -, rfl⟩ := Option.map_eq_some_iff.mp h
      exact Entries.find?_replace_of_ne hne es n'

theorem run_replace {c : Change} {key : String} (h : c.key ≠ key) (n : Node) (es : Entries) :
    c.run (es.replace key n) = (c.run es).map fun es => es.replace key n := by
  have hfind' := Entries.find?_replace_of_ne h.symm es n
  cases hfind : es.find? c.key with
  | none =>
      rw [run_of_none hfind, run_of_none (hfind'.trans hfind), Option.map_map]
      congr 1
      funext m
      show _ = Entries.replace key n (es ++ [(c.key, m)])
      rw [Entries.replace_append]
      simp [Entries.replace, h]
  | some m =>
      rw [run_of_some hfind, run_of_some (hfind'.trans hfind), Option.map_map]
      congr 1
      funext m'
      exact Entries.replace_comm h m' n es

/-- Changes of different keys commute once one of the keys is there. -/
theorem run_comm {c c' : Change} (hne : c'.key ≠ c.key) {es : Entries} {n : Node}
    (h : es.find? c.key = some n) :
    (c'.run es).bind c.run = (c.run es).bind c'.run := by
  rw [run_of_some h]
  cases hreach : c.reach n with
  | none =>
      show _ = none
      rw [Option.bind_eq_none_iff]
      intro es' hes'
      rw [run_of_some ((find?_of_run hes' hne).trans h), hreach]
      rfl
  | some m =>
      show _ = c'.run (es.replace c.key m)
      rw [run_replace hne]
      cases hrun : c'.run es with
      | none => rfl
      | some es' =>
          show c.run es' = _
          rw [run_of_some ((find?_of_run hrun hne).trans h), hreach]
          rfl

theorem isSome_find?_of_run {c : Change} {es es' : Entries} (h : c.run es = some es')
    {key : String} (hkey : (es.find? key).isSome) : (es'.find? key).isSome := by
  by_cases heq : c.key = key
  · subst heq
    obtain ⟨n, hfind⟩ := Option.isSome_iff_exists.mp hkey
    rw [run_of_some hfind] at h
    obtain ⟨n', -, rfl⟩ := Option.map_eq_some_iff.mp h
    rwa [Entries.isSome_find?_replace]
  · rwa [find?_of_run h heq]

/-- A change may be made behind those of a key that is there. -/
theorem runAll_move {c : Change} {cs : List Change} {key : String} (hcs : ∀ c ∈ cs, c.key = key)
    (hne : c.key ≠ key) {es : Entries} (h : (es.find? key).isSome) :
    (c.run es).bind (fun es => runAll es cs) = (runAll es cs).bind c.run := by
  induction cs generalizing es with
  | nil => exact Option.bind_fun_some _
  | cons a rest ih =>
      obtain ⟨rfl, hrest⟩ := List.forall_mem_cons.mp hcs
      obtain ⟨n, hn⟩ := Option.isSome_iff_exists.mp h
      calc (c.run es).bind (fun es => runAll es (a :: rest))
          = ((c.run es).bind a.run).bind fun es => runAll es rest := by
            rw [Option.bind_assoc]
            rfl
        _ = (a.run es).bind fun es => (c.run es).bind fun es => runAll es rest := by
            rw [run_comm hne hn, Option.bind_assoc]
        _ = (a.run es).bind fun es => (runAll es rest).bind c.run := by
            apply Option.bind_congr
            intro es' hes'
            exact ih hrest (isSome_find?_of_run hes' h)
        _ = (runAll es (a :: rest)).bind c.run := by
            rw [runAll_cons, Option.bind_assoc]

/-- The changes of a key that is there may be gathered. -/
theorem runAll_mixed {as bs cs : List Change} (hmixed : Mixed as bs cs) {key : String}
    (has : ∀ a ∈ as, a.key = key) (hbs : ∀ b ∈ bs, b.key ≠ key) {es : Entries}
    (h : (es.find? key).isSome) : runAll es cs = runAll es (as ++ bs) := by
  induction hmixed generalizing es with
  | nil => rfl
  | @left a as bs cs _ ih =>
      rw [List.cons_append, runAll_cons, runAll_cons]
      apply Option.bind_congr
      intro es' hes'
      exact ih (List.forall_mem_cons.mp has).2 hbs (isSome_find?_of_run hes' h)
  | @right b as bs cs _ ih =>
      -- a change of another key comes first and is moved behind those of this key
      obtain ⟨hb, hbs⟩ := List.forall_mem_cons.mp hbs
      calc runAll es (b :: cs)
          = (b.run es).bind fun es => runAll es (as ++ bs) := by
            rw [runAll_cons]
            apply Option.bind_congr
            intro es' hes'
            exact ih has hbs (isSome_find?_of_run hes' h)
        _ = ((b.run es).bind fun es => runAll es as).bind fun es => runAll es bs := by
            simp only [runAll_append, Option.bind_assoc]
        _ = runAll es (as ++ b :: bs) := by
            rw [runAll_move has hb h, runAll_append, Option.bind_assoc]
            rfl

/-- The changes of a key act on what it stands for. -/
theorem runAll_last {cs : List Change} {key : String} (hcs : ∀ c ∈ cs, c.key = key)
    {es : Entries} (h : es.find? key = none) (n : Node) :
    runAll (es ++ [(key, n)]) cs =
      (reachAll n cs).map fun n => es ++ [(key, n)] := by
  induction cs generalizing n with
  | nil => rfl
  | cons c rest ih =>
      obtain ⟨rfl, hrest⟩ := List.forall_mem_cons.mp hcs
      rw [runAll_cons, run_of_some (Entries.find?_last h n)]
      show _ = ((c.reach n).bind fun n => reachAll n rest).map _
      cases c.reach n with
      | none => rfl
      | some n' =>
          show runAll (Entries.replace c.key n' (es ++ [(c.key, n)])) rest = _
          rw [Entries.replace_last h, ih hrest]
          rfl

/-- Changes inside a table are made in its entries. -/
theorem reachAll_map {α : Type} {outer inner : α → Change} {origin : Origin}
    (h : ∀ a es, (outer a).reach (.table origin es) = ((inner a).run es).map (.table origin))
    (as : List α) (es : Entries) :
    reachAll (.table origin es) (as.map outer) =
      (runAll es (as.map inner)).map (.table origin) := by
  induction as generalizing es with
  | nil => rfl
  | cons a rest ih =>
      show ((outer a).reach (.table origin es)).bind (fun n => reachAll n (rest.map outer)) =
        (((inner a).run es).bind fun es => runAll es (rest.map inner)).map (.table origin)
      rw [h]
      cases (inner a).run es with
      | none => rfl
      | some es' => exact ih es'

end Change

/-! ## What changes make -/

theorem documentsOfEntries_append (nodes nodes' : Entries) :
    Node.documentsOfEntries (nodes ++ nodes') =
      Node.documentsOfEntries nodes ++ Node.documentsOfEntries nodes' := by
  induction nodes with
  | nil => rfl
  | cons e rest ih =>
      simp only [List.cons_append, Node.documentsOfEntries, ih]

/-- These nodes stand for a table. -/
def Entries.IsFor (nodes : Entries) (es : Table) : Prop :=
  Node.documentsOfEntries nodes = es.map fun e => (some e.1, e.2)

theorem Entries.IsFor.toDocument {nodes : Entries} {es : Table} (h : nodes.IsFor es)
    (origin : Origin) : (Node.table origin nodes).toDocument = .ofEntries es :=
  congrArg (Document.table · .closed) h

theorem Entries.IsFor.find? {nodes : Entries} {es : Table} (h : nodes.IsFor es) {key : String}
    (hkey : key ∉ keys es) : nodes.find? key = none := by
  induction nodes generalizing es with
  | nil => rfl
  | cons e rest ih =>
      cases es with
      | nil => cases h
      | cons e' es =>
          obtain ⟨hhead, htail⟩ := List.cons.inj h
          have hname : e.1 = e'.1 := Option.some.inj (Prod.mk.inj hhead).1
          obtain ⟨hne, hkeys⟩ := not_or.mp (mt List.mem_cons.mpr hkey)
          rw [Entries.find?_cons, if_neg (hname ▸ Ne.symm hne)]
          exact ih htail hkeys

/-- Changes that make a table wherever none of its keys is there yet. -/
structure Makes (cs : List Change) (es : Table) (nodes : Entries) : Prop where
  isFor : nodes.IsFor es
  key_mem : ∀ c ∈ cs, c.key ∈ keys es
  runs : ∀ acc : Entries, (∀ key ∈ keys es, acc.find? key = none) →
    Change.runAll acc cs = some (acc ++ nodes)

namespace Makes

theorem nil : Makes [] [] [] := by
  refine ⟨rfl, List.forall_mem_nil _, ?_⟩
  intro acc _
  exact congrArg some (List.append_nil acc).symm

/-- One more key: a change makes its node, others work on it, and the rest does not touch it. -/
theorem group {c : Change} {as bs cs : List Change} {n n' : Node} {d : Document} {es : Table}
    {nodes : Entries} (hfresh : c.fresh = some n) (has : ∀ a ∈ as, a.key = c.key)
    (hreach : Change.reachAll n as = some n') (hdocument : n'.toDocument = d)
    (hothers : Makes bs es nodes) (hnew : c.key ∉ keys es) (hmixed : Mixed as bs cs) :
    Makes (c :: cs) ((c.key, d) :: es) ((c.key, n') :: nodes) := by
  have hbs : ∀ b ∈ bs, b.key ≠ c.key := by
    intro b hb heq
    exact hnew (heq ▸ hothers.key_mem b hb)
  constructor
  case isFor =>
    show (some c.key, n'.toDocument) :: Node.documentsOfEntries nodes = _
    rw [hdocument, hothers.isFor]
    rfl
  case key_mem =>
    refine List.forall_mem_cons.mpr ⟨List.mem_cons_self, ?_⟩
    intro a ha
    rcases hmixed.mem_iff.mp ha with ha | hb
    · exact List.mem_cons.mpr (.inl (has a ha))
    · exact List.mem_cons_of_mem _ (hothers.key_mem a hb)
  case runs =>
    intro acc hacc
    obtain ⟨hkey, hkeys⟩ := List.forall_mem_cons.mp hacc
    have hpresent := Entries.find?_last hkey n
    have hothers' : ∀ key ∈ keys es, Entries.find? key (acc ++ [(c.key, n')]) = none := by
      intro key hmem
      have hne : c.key ≠ key := by
        rintro rfl
        exact hnew hmem
      rw [Entries.find?_last_of_ne hne]
      exact hkeys key hmem
    calc Change.runAll acc (c :: cs)
        = Change.runAll (acc ++ [(c.key, n)]) cs := by
          rw [Change.runAll_cons, Change.run_of_none hkey, hfresh]
          rfl
      _ = (Change.runAll (acc ++ [(c.key, n)]) as).bind fun es => Change.runAll es bs := by
          rw [Change.runAll_mixed hmixed has hbs (by rw [hpresent]; rfl), Change.runAll_append]
      _ = Change.runAll (acc ++ [(c.key, n')]) bs := by
          rw [Change.runAll_last has hkey, hreach]
          rfl
      _ = some (acc ++ (c.key, n') :: nodes) := by
          rw [hothers.runs _ hothers', List.append_assoc]
          rfl

/-- One table after another. -/
theorem append {cs cs' : List Change} {es es' : Table} {nodes nodes' : Entries}
    (h : Makes cs es nodes) (h' : Makes cs' es' nodes') (hapart : Apart es es') :
    Change.runAll nodes cs' = some (nodes ++ nodes') ∧ (nodes ++ nodes').IsFor (es ++ es') := by
  constructor
  · apply h'.runs
    intro key hkey
    apply h.isFor.find?
    exact fun hmem => hapart key hmem hkey
  · unfold Entries.IsFor
    rw [documentsOfEntries_append, h.isFor, h'.isFor, List.map_append]

end Makes

/-! ## Pairs -/

def Pair.change (p : Pair) : Change :=
  match p.path with
  | [] => ⟨p.key, some (.value p.value), fun _ => none⟩
  | k :: path =>
    ⟨k, (Entries.put p.key p.value path []).map (.table .dottedKey),
      Node.reachByKey? path.isEmpty (Entries.put p.key p.value path)⟩

theorem put_eq_run (p : Pair) (es : Entries) : es.put p.key p.value p.path = p.change.run es := by
  obtain ⟨path, key, d⟩ := p
  unfold Change.run Pair.change
  cases path with
  | nil =>
      show (if (es.find? key).isSome then none else _) = _
      dsimp only
      cases es.find? key with
      | none => rfl
      | some n => rfl
  | cons k path =>
      show (match es.find? k with
        | none => (Entries.put key d path []).map fun inner =>
            es ++ [(k, Node.table .dottedKey inner)]
        | some n => (n.reachByKey? path.isEmpty (Entries.put key d path)).map fun n =>
            es.replace k n) = _
      dsimp only
      cases es.find? k with
      | none => simp only [Option.map_map, Function.comp_def]
      | some n => rfl

theorem putAll_eq_runAll (ps : List Pair) (es : Entries) :
    es.putAll ps = Change.runAll es (ps.map Pair.change) := by
  induction ps generalizing es with
  | nil => rfl
  | cons p rest ih =>
      show (es.put p.key p.value p.path).bind (fun es => es.putAll rest) = _
      rw [put_eq_run, List.map_cons, Change.runAll_cons]
      exact Option.bind_congr fun es' _ => ih es'

theorem Pair.below_fresh (k : String) (p : Pair) :
    (p.below k).change.fresh = (p.change.run []).map (.table .dottedKey) := by
  rw [← put_eq_run]
  rfl

theorem Pair.below_reach (k : String) (p : Pair) (es : Entries) :
    (p.below k).change.reach (.table .dottedKey es) =
      (p.change.run es).map (.table .dottedKey) := by
  rw [← put_eq_run]
  rfl

theorem Pairs.makes {ps : List Pair} {es : Table} (h : Pairs ps es) :
    ∃ nodes, Makes (ps.map Pair.change) es nodes := by
  induction h with
  | nil => exact ⟨[], .nil⟩
  | @value k d ps es _ hnew ih =>
      obtain ⟨nodes, hnodes⟩ := ih
      exact ⟨_, .group rfl (List.forall_mem_nil _) rfl rfl hnodes hnew (mixed_nil _)⟩
  | @dotted k p inner ps rest innerEs es _ _ hnew hmixed ihInner ih =>
      obtain ⟨nodes, hnodes⟩ := ih
      obtain ⟨innerNodes, hinner⟩ := ihInner
      have hruns := hinner.runs [] fun _ _ => rfl
      rw [List.map_cons, Change.runAll_cons] at hruns
      obtain ⟨first, hfirst, hrest⟩ := Option.bind_eq_some_iff.mp hruns
      have hfresh : (p.below k).change.fresh = some (.table .dottedKey first) := by
        rw [Pair.below_fresh, hfirst]
        rfl
      have hreach : Change.reachAll (.table .dottedKey first)
          (inner.map fun q => (q.below k).change) = some (.table .dottedKey innerNodes) := by
        rw [Change.reachAll_map (Pair.below_reach k), hrest]
        rfl
      have hmixed' := hmixed.map Pair.change
      rw [List.map_map] at hmixed'
      refine ⟨_, .group hfresh ?_ hreach (hinner.isFor.toDocument _) hnodes hnew hmixed'⟩
      exact List.forall_mem_map.mpr fun _ _ => rfl

/-! ## Sections -/

namespace Section

def opening (s : Section) : Entries → Option Entries :=
  if s.repeated then Entries.addTable s else Entries.openTable s

/-- What the header of a table makes of a node. -/
def reopen? (s : Section) : Node → Option Node
  | .table .longerHeader inner => (Entries.putAll inner s.pairs).map (.table .header)
  | _ => none

/-- What a repeated header makes of a node. -/
def addTo? (s : Section) : Node → Option Node
  | .tables elements =>
    (Entries.putAll [] s.pairs).map fun inner => .tables (elements ++ [.table .header inner])
  | _ => none

/-- The change at the end of the path. -/
def changeHere (s : Section) : Change :=
  let own := (Entries.putAll [] s.pairs).map (Node.table .header)
  if s.repeated then ⟨s.key, own.map fun n => .tables [n], s.addTo?⟩ else ⟨s.key, own, s.reopen?⟩

theorem opening_eq_run (s : Section) (es : Entries) : s.opening es = s.changeHere.run es := by
  obtain ⟨repeated, path, key, pairs⟩ := s
  cases repeated with
  | true =>
      show Entries.addTable _ es = Change.run
        ⟨key, ((Entries.putAll [] pairs).map (Node.table .header)).map fun n => .tables [n], _⟩ es
      unfold Entries.addTable Change.run addTo?
      dsimp only
      cases Entries.putAll [] pairs with
      | none => cases es.find? key with
        | none => rfl
        | some n => cases n <;> rfl
      | some inner => cases es.find? key with
        | none => rfl
        | some n => cases n <;> rfl
  | false =>
      show Entries.openTable _ es =
        Change.run ⟨key, (Entries.putAll [] pairs).map (Node.table .header), _⟩ es
      unfold Entries.openTable Change.run reopen?
      dsimp only
      cases es.find? key with
      | none => simp only [Option.map_map, Function.comp_def]
      | some n =>
          cases n with
          | table origin inner =>
              cases origin with
              | longerHeader => simp only [Option.map_map, Function.comp_def]
              | header | dottedKey => rfl
          | value | tables => rfl

def change (s : Section) : Change :=
  match s.path with
  | [] => s.changeHere
  | k :: path =>
    ⟨k, (Entries.within s.opening path []).map (.table .longerHeader),
      Node.reachByHeader? (Entries.within s.opening path)⟩

theorem addSection_eq_run (s : Section) (es : Entries) : es.addSection s = s.change.run es := by
  show Entries.within s.opening s.path es = _
  unfold change
  cases s.path with
  | nil => exact s.opening_eq_run es
  | cons k path =>
      show (match es.find? k with
        | none => (Entries.within s.opening path []).map fun inner =>
            es ++ [(k, Node.table .longerHeader inner)]
        | some n => (n.reachByHeader? (Entries.within s.opening path)).map fun n =>
            es.replace k n) = _
      unfold Change.run
      dsimp only
      cases es.find? k with
      | none => simp only [Option.map_map, Function.comp_def]
      | some n => rfl

theorem below_fresh (k : String) (s : Section) :
    (s.below k).change.fresh = (s.change.run []).map (.table .longerHeader) := by
  rw [← addSection_eq_run]
  rfl

theorem below_reach (k : String) (origin : Origin) (s : Section) (es : Entries) :
    (s.below k).change.reach (.table origin es) = (s.change.run es).map (.table origin) := by
  rw [← addSection_eq_run]
  rfl

end Section

theorem foldlM_addSection (ss : List Section) (es : Entries) :
    ss.foldlM Entries.addSection es = Change.runAll es (ss.map Section.change) := by
  induction ss generalizing es with
  | nil => rfl
  | cons s rest ih =>
      show (es.addSection s).bind (fun es => rest.foldlM Entries.addSection es) = _
      rw [Section.addSection_eq_run, List.map_cons, Change.runAll_cons]
      exact Option.bind_congr fun es' _ => ih es'

/-- The sections below a key work on the entries of its table. -/
theorem reachAll_below (k : String) (origin : Origin) (ss : List Section) (es : Entries) :
    Change.reachAll (.table origin es) ((ss.map (Section.below k)).map Section.change) =
      (Change.runAll es (ss.map Section.change)).map (.table origin) := by
  rw [List.map_map]
  exact Change.reachAll_map (Section.below_reach k origin) ss es

theorem key_of_mem_below {k : String} {ss : List Section} {c : Change}
    (h : c ∈ (ss.map (Section.below k)).map Section.change) : c.key = k := by
  rw [List.map_map] at h
  obtain ⟨s, -, rfl⟩ := List.mem_map.mp h
  rfl

theorem fresh_opened (k : String) {ps : List Pair} {es : Table} {nodes : Entries}
    (h : Makes (ps.map Pair.change) es nodes) :
    (Section.mk false [] k ps).change.fresh = some (.table .header nodes) := by
  show (Entries.putAll [] ps).map _ = _
  rw [putAll_eq_runAll, h.runs [] fun _ _ => rfl]
  rfl

/-- A header of its own reopens a table that was made for longer headers. -/
theorem reach_reopened (k : String) {ps : List Pair} {inner nodes : Entries}
    (h : Change.runAll inner (ps.map Pair.change) = some nodes) :
    (Section.mk false [] k ps).change.reach (.table .longerHeader inner) =
      some (.table .header nodes) := by
  show (Entries.putAll inner ps).map _ = _
  rw [putAll_eq_runAll, h]
  rfl

/-- The first of the sections below a key makes a table that has no header of its own yet. -/
theorem Makes.split_first {k : String} {s : Section} {ss : List Section} {es : Table}
    {nodes : Entries} (h : Makes ((s :: ss).map Section.change) es nodes) :
    ∃ first, (s.below k).change.fresh = some (.table .longerHeader first) ∧
      Change.runAll first (ss.map Section.change) = some nodes := by
  have hruns := h.runs [] fun _ _ => rfl
  rw [List.map_cons, Change.runAll_cons] at hruns
  obtain ⟨first, hfirst, hrest⟩ := Option.bind_eq_some_iff.mp hruns
  refine ⟨first, ?_, hrest⟩
  rw [Section.below_fresh, hfirst]
  rfl

theorem Sections.makes {ss : List Section} {es : Table} (h : Sections ss es) :
    ∃ nodes, Makes (ss.map Section.change) es nodes := by
  induction h with
  | nil => exact ⟨[], .nil⟩
  | @opened k ps inner ss rest own innerEs es hpairs _ hapart _ hnew hmixed ihInner ih =>
      obtain ⟨nodes, hnodes⟩ := ih
      obtain ⟨innerNodes, hinner⟩ := ihInner
      obtain ⟨ownNodes, hown⟩ := hpairs.makes
      obtain ⟨hruns, hisFor⟩ := hown.append hinner hapart
      have hreach := reachAll_below k .header inner ownNodes
      rw [hruns] at hreach
      exact ⟨_, .group (fresh_opened k hown) (fun _ => key_of_mem_below) hreach
        (hisFor.toDocument _) hnodes hnew (hmixed.map Section.change)⟩
  | @implied k s inner ss rest innerEs es _ _ hnew hmixed ihInner ih =>
      obtain ⟨nodes, hnodes⟩ := ih
      obtain ⟨innerNodes, hinner⟩ := ihInner
      obtain ⟨first, hfresh, hruns⟩ := hinner.split_first (k := k)
      have hreach := reachAll_below k .longerHeader inner first
      rw [hruns] at hreach
      exact ⟨_, .group hfresh (fun _ => key_of_mem_below) hreach
        (hinner.isFor.toDocument _) hnodes hnew (hmixed.map Section.change)⟩
  | @late k s ps inner ss rest innerEs own es _ hpairs hapart _ hnew hmixed ihInner ih =>
      obtain ⟨nodes, hnodes⟩ := ih
      obtain ⟨innerNodes, hinner⟩ := ihInner
      obtain ⟨ownNodes, hown⟩ := hpairs.makes
      -- the table is there without a header of its own, which comes last and reopens it
      obtain ⟨hputs, hisFor⟩ := hinner.append hown hapart
      obtain ⟨first, hfresh, hruns⟩ := hinner.split_first (k := k)
      have hreach : Change.reachAll (.table .longerHeader first)
          ((inner.map (Section.below k) ++ [Section.mk false [] k ps]).map Section.change) =
          some (.table .header (innerNodes ++ ownNodes)) := by
        rw [List.map_append, Change.reachAll_append, reachAll_below, hruns]
        show Change.reachAll _ [(Section.mk false [] k ps).change] = _
        rw [Change.reachAll_singleton, reach_reopened k hputs]
      refine ⟨_, .group hfresh ?_ hreach (hisFor.toDocument _) hnodes hnew
        (hmixed.map Section.change)⟩
      rw [List.map_append, List.forall_mem_append]
      exact ⟨fun _ => key_of_mem_below, List.forall_mem_singleton.mpr rfl⟩

/-! ## Whole texts -/

theorem assemble?_eq {ps : List Pair} {ss : List Section} {own inner : Table} (hps : Pairs ps own)
    (hss : Sections ss inner) (hapart : Apart own inner) :
    assemble? ps ss = some (.ofEntries (own ++ inner)) := by
  obtain ⟨ownNodes, hown⟩ := hps.makes
  obtain ⟨innerNodes, hinner⟩ := hss.makes
  obtain ⟨hruns, hisFor⟩ := hown.append hinner hapart
  have hputs : Entries.putAll [] ps = some ownNodes := by
    rw [putAll_eq_runAll]
    exact hown.runs [] fun _ _ => rfl
  show (Entries.putAll [] ps).bind (fun es => (ss.foldlM Entries.addSection es).bind _) = _
  rw [hputs, Option.bind_some, foldlM_addSection, hruns]
  exact congrArg some (hisFor.toDocument .header)

end GrowthCurve.Toml
