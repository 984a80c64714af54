import Mathlib
import GrowthCurve.Proofs.Document.Tables
import GrowthCurve.Proofs.Toml.Assembly

/-!
# Nothing is at fault in a TOML table

A text is either read as a whole or not at all. So no fault is left in any part
of the table that was read, whether or not somebody asks for that part.
-/

namespace GrowthCurve.Toml

/-! ## Nodes -/

def Node.Faultless (n : Node) : Prop :=
  n.toDocument.passedFault? = none

def Entries.Faultless (es : Entries) : Prop :=
  ∀ e ∈ es, e.2.Faultless

theorem faultless_table {origin : Origin} {es : Entries} :
    (Node.table origin es).Faultless ↔ es.Faultless := by
  have hdocuments : Node.documentsOfEntries es =
      (es.map fun e => (e.1, e.2.toDocument)).map fun e => (some e.1, e.2) := by
    induction es with
    | nil => rfl
    | cons e rest ih =>
        rw [Node.documentsOfEntries, ih]
        rfl
  have htable : (Node.table origin es).toDocument =
      .ofEntries (es.map fun e => (e.1, e.2.toDocument)) :=
    congrArg (Document.table · .closed) hdocuments
  unfold Node.Faultless
  rw [htable, Document.passedFault?_ofEntries, List.forall_mem_map]
  rfl

theorem faultless_tables {elements : List Node} :
    (Node.tables elements).Faultless ↔ ∀ n ∈ elements, n.Faultless := by
  have hdocuments : Node.documentsOf elements = elements.map Node.toDocument := by
    induction elements with
    | nil => rfl
    | cons n rest ih =>
        rw [Node.documentsOf, ih]
        rfl
  have hlist : (Node.tables elements).toDocument = .list (elements.map Node.toDocument) .loose :=
    congrArg (Document.list · .loose) hdocuments
  unfold Node.Faultless
  rw [hlist, Document.passedFault?_list, List.forall_mem_map]
  exact and_iff_left rfl

namespace Entries.Faultless

variable {es : Entries}

theorem last (h : es.Faultless) {key : String} {n : Node} (hn : n.Faultless) :
    Entries.Faultless (es ++ [(key, n)]) :=
  List.forall_mem_append.mpr ⟨h, List.forall_mem_singleton.mpr hn⟩

theorem replace (h : es.Faultless) {key : String} {n : Node} (hn : n.Faultless) :
    (Entries.replace key n es).Faultless := by
  refine List.forall_mem_map.mpr ?_
  intro e he
  by_cases hkey : e.1 = key
  · rw [if_pos hkey]
    exact hn
  · rw [if_neg hkey]
    exact h e he

theorem find? (h : es.Faultless) {key : String} {n : Node} (hn : es.find? key = some n) :
    n.Faultless := by
  obtain ⟨e, he, rfl⟩ := Option.map_eq_some_iff.mp hn
  exact h e (List.mem_of_find?_eq_some he)

end Entries.Faultless

/-! ## Changes -/

/-- A change of entries that puts no fault into them. -/
def Keeps (change : Entries → Option Entries) : Prop :=
  ∀ es es', Entries.Faultless es → change es = some es' → Entries.Faultless es'

theorem keeps_changeLast? {change : Entries → Option Entries} (h : Keeps change)
    {elements : List Node} (helements : ∀ n ∈ elements, n.Faultless) {n : Node}
    (hn : Node.changeLast? change elements = some n) : n.Faultless := by
  unfold Node.changeLast? at hn
  split at hn
  case h_1 origin es hlast =>
    obtain ⟨es', hes', rfl⟩ := Option.map_eq_some_iff.mp hn
    have hes := faultless_table.mp (helements _ (List.mem_of_getLast? hlast))
    refine faultless_tables.mpr (List.forall_mem_append.mpr ⟨?_, ?_⟩)
    · exact fun m hm => helements m (List.mem_of_mem_dropLast hm)
    · exact List.forall_mem_singleton.mpr (faultless_table.mpr (h es es' hes hes'))
  case h_2 => cases hn

theorem keeps_reachByKey? {change : Entries → Option Entries} (h : Keeps change) {last : Bool}
    {n n' : Node} (hn : n.Faultless) (hn' : n.reachByKey? last change = some n') :
    n'.Faultless := by
  unfold Node.reachByKey? at hn'
  split at hn'
  case h_1 es =>
    obtain ⟨es', hes', rfl⟩ := Option.map_eq_some_iff.mp hn'
    exact faultless_table.mpr (h es es' (faultless_table.mp hn) hes')
  case h_2 es =>
    split_ifs at hn'
    obtain ⟨es', hes', rfl⟩ := Option.map_eq_some_iff.mp hn'
    exact faultless_table.mpr (h es es' (faultless_table.mp hn) hes')
  case h_3 =>
    split_ifs at hn'
    exact keeps_changeLast? h (faultless_tables.mp hn) hn'
  case h_4 => cases hn'

theorem keeps_reachByHeader? {change : Entries → Option Entries} (h : Keeps change) {n n' : Node}
    (hn : n.Faultless) (hn' : n.reachByHeader? change = some n') : n'.Faultless := by
  cases n with
  | value => cases hn'
  | table origin es =>
      obtain ⟨es', hes', rfl⟩ := Option.map_eq_some_iff.mp hn'
      exact faultless_table.mpr (h es es' (faultless_table.mp hn) hes')
  | tables elements => exact keeps_changeLast? h (faultless_tables.mp hn) hn'

theorem Change.keeps_run {c : Change} (hfresh : ∀ n, c.fresh = some n → n.Faultless)
    (hreach : ∀ n n', n.Faultless → c.reach n = some n' → n'.Faultless) : Keeps c.run := by
  intro es es' hes hrun
  cases hfind : es.find? c.key with
  | none =>
      rw [run_of_none hfind] at hrun
      obtain ⟨n, hn, rfl⟩ := Option.map_eq_some_iff.mp hrun
      exact hes.last (hfresh n hn)
  | some n =>
      rw [run_of_some hfind] at hrun
      obtain ⟨n', hn', rfl⟩ := Option.map_eq_some_iff.mp hrun
      exact hes.replace (hreach n n' (hes.find? hfind) hn')

theorem faultless_nil : Entries.Faultless [] :=
  List.forall_mem_nil _

theorem keeps_foldlM {α : Type} {step : Entries → α → Option Entries} {as : List α}
    (h : ∀ a ∈ as, Keeps fun es => step es a) : Keeps fun es => as.foldlM step es := by
  intro es es' hes hfold
  induction as generalizing es with
  | nil =>
      obtain rfl := Option.some.inj hfold
      exact hes
  | cons a rest ih =>
      obtain ⟨hfirst, hrest⟩ := List.forall_mem_cons.mp h
      obtain ⟨next, hnext, hfold⟩ := Option.bind_eq_some_iff.mp hfold
      exact ih hrest next (hfirst es next hes hnext) hfold

/-! ## Pairs and sections -/

theorem keeps_put {key : String} {d : Document} (hd : d.passedFault? = none)
    (path : List String) : Keeps (Entries.put key d path) := by
  have hrun : ∀ path, Entries.put key d path = (Pair.mk path key d).change.run :=
    fun path => funext fun es => put_eq_run ⟨path, key, d⟩ es
  induction path with
  | nil =>
      rw [hrun]
      apply Change.keeps_run
      · rintro n ⟨⟩
        exact hd
      · exact nofun
  | cons k path ih =>
      rw [hrun]
      apply Change.keeps_run
      · intro n hn
        obtain ⟨inner, hinner, rfl⟩ := Option.map_eq_some_iff.mp hn
        exact faultless_table.mpr (ih [] inner faultless_nil hinner)
      · exact fun n n' hn hn' => keeps_reachByKey? ih hn hn'

def Pair.Faultless (p : Pair) : Prop :=
  p.value.passedFault? = none

theorem keeps_putAll {ps : List Pair} (h : ∀ p ∈ ps, p.Faultless) :
    Keeps fun es => es.putAll ps :=
  keeps_foldlM fun p hp => keeps_put (h p hp) p.path

theorem faultless_of_putAll {ps : List Pair} (h : ∀ p ∈ ps, p.Faultless) (origin : Origin)
    {n : Node} (hn : (Entries.putAll [] ps).map (Node.table origin) = some n) : n.Faultless := by
  obtain ⟨inner, hinner, rfl⟩ := Option.map_eq_some_iff.mp hn
  exact faultless_table.mpr (keeps_putAll h [] inner faultless_nil hinner)

namespace Section

variable {s : Section} (h : ∀ p ∈ s.pairs, p.Faultless)

include h

theorem faultless_of_addTo? {n n' : Node} (hn : n.Faultless) (hn' : s.addTo? n = some n') :
    n'.Faultless := by
  cases n with
  | tables elements =>
      obtain ⟨inner, hinner, rfl⟩ := Option.map_eq_some_iff.mp hn'
      have hnew := keeps_putAll h [] inner faultless_nil hinner
      refine faultless_tables.mpr (List.forall_mem_append.mpr ⟨faultless_tables.mp hn, ?_⟩)
      exact List.forall_mem_singleton.mpr (faultless_table.mpr hnew)
  | value | table => cases hn'

theorem faultless_of_reopen? {n n' : Node} (hn : n.Faultless) (hn' : s.reopen? n = some n') :
    n'.Faultless := by
  unfold reopen? at hn'
  split at hn'
  case h_1 inner =>
    obtain ⟨own, hown, rfl⟩ := Option.map_eq_some_iff.mp hn'
    exact faultless_table.mpr (keeps_putAll h inner own (faultless_table.mp hn) hown)
  case h_2 => cases hn'

theorem keeps_opening : Keeps s.opening := by
  have hrun : s.opening = s.changeHere.run := funext s.opening_eq_run
  rw [hrun]
  unfold changeHere
  dsimp only
  split_ifs
  · apply Change.keeps_run
    · intro n hn
      obtain ⟨own, hown, rfl⟩ := Option.map_eq_some_iff.mp hn
      exact faultless_tables.mpr (List.forall_mem_singleton.mpr (faultless_of_putAll h _ hown))
    · exact fun n n' hn hn' => faultless_of_addTo? h hn hn'
  · apply Change.keeps_run
    · exact fun n hn => faultless_of_putAll h _ hn
    · exact fun n n' hn hn' => faultless_of_reopen? h hn hn'

end Section

theorem keeps_within {change : Entries → Option Entries} (h : Keeps change)
    (path : List String) : Keeps (Entries.within change path) := by
  induction path with
  | nil => exact h
  | cons k path ih =>
      intro es es' hes hwithin
      unfold Entries.within at hwithin
      split at hwithin
      case h_1 =>
        obtain ⟨inner, hinner, rfl⟩ := Option.map_eq_some_iff.mp hwithin
        exact hes.last (faultless_table.mpr (ih [] inner faultless_nil hinner))
      case h_2 n hfind =>
        obtain ⟨n', hn', rfl⟩ := Option.map_eq_some_iff.mp hwithin
        exact hes.replace (keeps_reachByHeader? ih (hes.find? hfind) hn')

theorem passedFault?_of_assemble? {ps : List Pair} {ss : List Section}
    (hps : ∀ p ∈ ps, p.Faultless) (hss : ∀ s ∈ ss, ∀ p ∈ s.pairs, p.Faultless) {d : Document}
    (h : assemble? ps ss = some d) : d.passedFault? = none := by
  obtain ⟨own, hown, h⟩ := Option.bind_eq_some_iff.mp h
  obtain ⟨es, hes, h⟩ := Option.bind_eq_some_iff.mp h
  obtain rfl := Option.some.inj h
  have hown := keeps_putAll hps [] own faultless_nil hown
  have hall : Keeps fun es => ss.foldlM Entries.addSection es :=
    keeps_foldlM fun s hs => keeps_within (Section.keeps_opening (hss s hs)) s.path
  show (Node.table .header es).Faultless
  exact faultless_table.mpr (hall own es hown hes)

/-! ## Values -/

/-- A reader leaves no fault in what it has read. -/
def Sound (item : Reader Document) : Prop :=
  ∀ cs d rest, item cs = some (d, rest) → d.passedFault? = none

theorem faultless_of_readItems {item : Reader Document} (hitem : Sound item) {fuel : ℕ}
    {cs rest : List Char} {ds : List Document} (h : readItems item fuel cs = some (ds, rest)) :
    ∀ d ∈ ds, d.passedFault? = none := by
  induction fuel generalizing cs rest ds with
  | zero => cases h
  | succ fuel ih =>
      obtain ⟨cs', -, h⟩ := Option.bind_eq_some_iff.mp h
      split at h
      case h_1 =>
        cases h
        exact List.forall_mem_nil _
      case h_2 =>
        obtain ⟨⟨d, rest'⟩, hd, h⟩ := Option.bind_eq_some_iff.mp h
        obtain ⟨cs'', -, h⟩ := Option.bind_eq_some_iff.mp h
        have hd := hitem _ _ _ hd
        split at h
        case h_1 =>
          cases h
          exact List.forall_mem_singleton.mpr hd
        case h_2 =>
          obtain ⟨⟨items, rest''⟩, hitems, h⟩ := Option.bind_eq_some_iff.mp h
          cases h
          exact List.forall_mem_cons.mpr ⟨hd, ih hitems⟩
        case h_3 => cases h

theorem faultless_of_readPair {item : Reader Document} (hitem : Sound item) {cs rest : List Char}
    {p : Pair} (h : readPair item cs = some (p, rest)) : p.Faultless := by
  obtain ⟨⟨parts, rest'⟩, -, h⟩ := Option.bind_eq_some_iff.mp h
  dsimp only at h
  split at h
  case h_1 =>
    obtain ⟨⟨d, rest''⟩, hd, h⟩ := Option.bind_eq_some_iff.mp h
    obtain ⟨q, hq, h⟩ := Option.bind_eq_some_iff.mp h
    cases h
    obtain ⟨key, -, rfl⟩ := Option.map_eq_some_iff.mp hq
    exact hitem _ _ _ hd
  case h_2 => cases h

theorem faultless_of_readInline {item : Reader Document} (hitem : Sound item) {fuel : ℕ}
    {cs rest : List Char} {ps : List Pair} (h : readInline item fuel cs = some (ps, rest)) :
    ∀ p ∈ ps, p.Faultless := by
  induction fuel generalizing cs rest ps with
  | zero => cases h
  | succ fuel ih =>
      obtain ⟨⟨p, rest'⟩, hp, h⟩ := Option.bind_eq_some_iff.mp h
      have hp := faultless_of_readPair hitem hp
      dsimp only at h
      split at h
      case h_1 =>
        cases h
        exact List.forall_mem_singleton.mpr hp
      case h_2 =>
        obtain ⟨⟨pairs, rest''⟩, hpairs, h⟩ := Option.bind_eq_some_iff.mp h
        cases h
        exact List.forall_mem_cons.mpr ⟨hp, ih hpairs⟩
      case h_3 => cases h

theorem sound_readMoment : Sound readMoment := by
  intro cs d rest h
  obtain ⟨rest', -, h⟩ := Option.bind_eq_some_iff.mp h
  cases h
  rfl

theorem sound_readBase (base : ℕ) : Sound (readBase base) := by
  intro cs d rest h
  obtain ⟨⟨digits, rest'⟩, -, h⟩ := Option.bind_eq_some_iff.mp h
  dsimp only at h
  split at h
  case isTrue =>
    cases h
    rfl
  case isFalse => cases h

theorem faultless_of_integer? {negative : Bool} {digits : List Char} {d : Document}
    (h : integer? negative digits = some d) : d.passedFault? = none := by
  unfold integer? at h
  dsimp only at h
  split_ifs at h
  · cases h
    rfl
  · cases h
    rfl

theorem faultless_of_real? {negative : Bool} {digits : List Char} {exponent : Int} {d : Document}
    (h : real? negative digits exponent = some d) : d.passedFault? = none := by
  unfold real? at h
  dsimp only at h
  split_ifs at h
  · cases h
    rfl
  · cases h
    rfl

theorem sound_readDecimal (negative : Bool) : Sound (readDecimal negative) := by
  intro cs d rest h
  obtain ⟨⟨whole, cs₁⟩, -, h⟩ := Option.bind_eq_some_iff.mp h
  obtain ⟨⟨places, cs₂⟩, -, h⟩ := Option.bind_eq_some_iff.mp h
  obtain ⟨⟨exponent, cs₃⟩, -, h⟩ := Option.bind_eq_some_iff.mp h
  dsimp only at h
  split_ifs at h
  · obtain ⟨value, hvalue, h⟩ := Option.bind_eq_some_iff.mp h
    cases h
    exact faultless_of_integer? hvalue
  · obtain ⟨value, hvalue, h⟩ := Option.bind_eq_some_iff.mp h
    cases h
    exact faultless_of_real? hvalue

theorem sound_readNumber : Sound readNumber := by
  intro cs d rest h
  unfold readNumber at h
  split at h
  case h_1 | h_2 =>
    cases h
    rfl
  case h_3 | h_4 | h_5 => exact sound_readBase _ _ _ _ h
  case h_6 => exact sound_readDecimal _ _ _ _ h

/-- The values without parts. -/
theorem faultless_of_scalar {cs rest : List Char} {d : Document}
    (h : (readMoment cs <|> readNumber cs) = some (d, rest)) : d.passedFault? = none := by
  cases hmoment : readMoment cs with
  | none =>
      rw [hmoment] at h
      exact sound_readNumber _ _ _ h
  | some r =>
      rw [hmoment] at h
      obtain rfl := Option.some.inj h
      exact sound_readMoment _ _ _ hmoment

theorem faultless_of_text {quote : Char} {cs rest : List Char} {d : Document}
    (h : ((readText quote cs).map fun r => (Document.text r.1, r.2)) = some (d, rest)) :
    d.passedFault? = none := by
  obtain ⟨r, -, h⟩ := Option.map_eq_some_iff.mp h
  cases h
  rfl

theorem sound_readValue (depth : ℕ) : Sound (readValue depth) := by
  induction depth using Nat.strong_induction_on with
  | _ depth ih =>
      intro cs d rest h
      unfold readValue at h
      split at h
      case h_1 | h_2 => exact faultless_of_text h
      case h_3 | h_4 =>
        cases h
        rfl
      case h_5 | h_6 => cases h
      case h_7 depth _ =>
        obtain ⟨⟨items, rest'⟩, hitems, h⟩ := Option.map_eq_some_iff.mp h
        cases h
        have hitems := faultless_of_readItems (ih depth (Nat.lt_succ_self depth)) hitems
        exact Document.passedFault?_list.mpr ⟨hitems, rfl⟩
      case h_8 depth _ =>
        split at h
        case h_1 =>
          cases h
          rfl
        case h_2 =>
          obtain ⟨⟨pairs, rest'⟩, hpairs, h⟩ := Option.bind_eq_some_iff.mp h
          obtain ⟨table, htable, h⟩ := Option.bind_eq_some_iff.mp h
          cases h
          have hpairs := faultless_of_readInline (ih depth (Nat.lt_succ_self depth)) hpairs
          exact passedFault?_of_assemble? hpairs (List.forall_mem_nil _) htable
      case h_9 => exact faultless_of_scalar h

/-! ## Lines -/

/-- A pair in a line has a value without fault. -/
def Statement.Faultless : Statement → Prop
  | .pair p => p.Faultless
  | .header .. => True

theorem faultless_of_readHeader {cs rest : List Char} {s : Statement}
    (h : readHeader cs = some (s, rest)) : s.Faultless := by
  unfold readHeader at h
  split at h
  case h_1 | h_2 =>
    obtain ⟨⟨parts, rest'⟩, -, h⟩ := Option.bind_eq_some_iff.mp h
    dsimp only at h
    split at h
    · obtain ⟨key, -, h⟩ := Option.bind_eq_some_iff.mp h
      cases h
      trivial
    · cases h

theorem faultless_of_readStatement {cs rest : List Char} {s : Statement}
    (h : readStatement cs = some (s, rest)) : s.Faultless := by
  unfold readStatement at h
  split at h
  case h_1 =>
    obtain ⟨⟨s', after⟩, hs, h⟩ := Option.bind_eq_some_iff.mp h
    obtain ⟨rest', -, h⟩ := Option.bind_eq_some_iff.mp h
    cases h
    exact faultless_of_readHeader hs
  case h_2 =>
    obtain ⟨⟨s', after⟩, hs, h⟩ := Option.bind_eq_some_iff.mp h
    obtain ⟨rest', -, h⟩ := Option.bind_eq_some_iff.mp h
    cases h
    obtain ⟨⟨p, after'⟩, hp, hs⟩ := Option.map_eq_some_iff.mp hs
    cases hs
    exact faultless_of_readPair (sound_readValue nestingLimit) hp

theorem faultless_of_readStatements {fuel : ℕ} {cs : List Char} {ss : List Statement}
    (h : readStatements fuel cs = some ss) : ∀ s ∈ ss, s.Faultless := by
  induction fuel generalizing cs ss with
  | zero => cases h
  | succ fuel ih =>
      rw [readStatements] at h
      split at h
      case h_1 =>
        cases h
        exact List.forall_mem_nil _
      case h_2 =>
        split_ifs at h
        · obtain ⟨after, -, h⟩ := Option.bind_eq_some_iff.mp h
          exact ih h
        · obtain ⟨⟨s, after⟩, hs, h⟩ := Option.bind_eq_some_iff.mp h
          obtain ⟨others, hothers, h⟩ := Option.bind_eq_some_iff.mp h
          cases h
          exact List.forall_mem_cons.mpr ⟨faultless_of_readStatement hs, ih hothers⟩

theorem faultless_of_sections {ss : List Statement} (h : ∀ s ∈ ss, s.Faultless) :
    (∀ p ∈ (sections ss).1, p.Faultless) ∧ ∀ s ∈ (sections ss).2, ∀ p ∈ s.pairs, p.Faultless := by
  induction ss with
  | nil => exact ⟨List.forall_mem_nil _, List.forall_mem_nil _⟩
  | cons s rest ih =>
      obtain ⟨hs, hrest⟩ := List.forall_mem_cons.mp h
      obtain ⟨hpairs, hsections⟩ := ih hrest
      cases s with
      | pair p => exact ⟨List.forall_mem_cons.mpr ⟨hs, hpairs⟩, hsections⟩
      | header repeated path key =>
          exact ⟨List.forall_mem_nil _, List.forall_mem_cons.mpr ⟨hpairs, hsections⟩⟩

theorem passedFault?_of_read? {cs : List Char} {d : Document} (h : read? cs = some d) :
    d.passedFault? = none := by
  obtain ⟨ss, hss, h⟩ := Option.bind_eq_some_iff.mp h
  obtain ⟨hpairs, hsections⟩ := faultless_of_sections (faultless_of_readStatements hss)
  exact passedFault?_of_assemble? hpairs hsections h

end GrowthCurve.Toml
