import Mathlib
import GrowthCurve.Proofs.Toml.Lexemes

/-!
# Numbers are read

A number is read from its sign, its digits and what they are followed by. It is
never the start of a date or a time: those have a minus sign or a colon right
behind their first digits.
-/

namespace GrowthCurve.Toml

open Text

/-! ## Numbers -/

/-- The next character, if there is one, is one of these. -/
def HeadIn (marks cs : List Char) : Prop :=
  ∀ c, cs.head? = some c → c ∈ marks

theorem headIn_cons {marks : List Char} {c : Char} (hc : c ∈ marks) (cs : List Char) :
    HeadIn marks (c :: cs) := by
  rintro _ ⟨⟩
  exact hc

theorem HeadIn.imp {marks cs : List Char} (h : HeadIn marks cs) {p : Char → Bool}
    (hmarks : marks.all p = true) {c : Char} (hc : cs.head? = some c) : p c = true :=
  List.all_eq_true.mp hmarks c (h c hc)

/-- What may stand right behind a value. -/
def endMarks : List Char :=
  [' ', '\t', '\n', '\r', '#', ',', ']', '\x7d']

/-- What may stand right behind the whole digits of a number. -/
def partMarks : List Char :=
  '.' :: 'e' :: 'E' :: endMarks

theorem EndsValue.headIn {cs : List Char} (h : EndsValue cs) : HeadIn endMarks cs := by
  have hblank : ∀ c, isBlank c = true → c ∈ endMarks := by
    intro c hc
    simp only [isBlank, Bool.or_eq_true, beq_iff_eq] at hc
    rcases hc with rfl | rfl <;> decide
  intro c hc
  cases h with
  | nil hb => exact hblank c (hb c (List.mem_of_head? hc))
  | @mark b cs m hb hm =>
      cases b with
      | nil =>
          obtain rfl := Option.some.inj hc
          exact List.mem_cons_of_mem _ (List.mem_cons_of_mem _ hm)
      | cons d b =>
          obtain rfl := Option.some.inj hc
          exact hblank d (hb d List.mem_cons_self)

/-- No digit and no underscore is the next character. -/
def NoDigit (isDigit : Char → Bool) (cs : List Char) : Prop :=
  ∀ c, cs.head? = some c → isDigit c = false ∧ c ≠ '_'

theorem HeadIn.noDigit {marks cs : List Char} (h : HeadIn marks cs) {isDigit : Char → Bool}
    (hmarks : (marks.all fun c => !isDigit c && c != '_') = true) : NoDigit isDigit cs := by
  intro c hc
  have himp := h.imp hmarks hc
  simpa using himp

theorem DigitsText.starts {isDigit : Char → Bool} {ds cs : List Char}
    (h : DigitsText isDigit ds cs) : ∃ c rest, cs = c :: rest ∧ isDigit c = true := by
  cases h with
  | last hd | next hd _ | underscore hd _ => exact ⟨_, _, rfl, hd⟩

theorem DigitsText.head {isDigit : Char → Bool} {ds cs : List Char}
    (h : DigitsText isDigit ds cs) : ds.head? = cs.head? := by
  cases h with
  | last | next | underscore => rfl

section Digits

variable {isDigit : Char → Bool} (hunderscore : isDigit '_' = false)

include hunderscore

theorem moreDigits_cons {c : Char} (hc : isDigit c = true) (rest : List Char) :
    moreDigits isDigit (c :: rest) = (moreDigits isDigit rest).map fun r => (c :: r.1, r.2) := by
  have hne : c ≠ '_' := by
    rintro rfl
    rw [hunderscore] at hc
    cases hc
  rw [moreDigits]
  · exact if_pos hc
  · exact fun h _ => hne h
  · exact fun _ _ h _ => hne h

theorem moreDigits_underscore {c : Char} (hc : isDigit c = true) (rest : List Char) :
    moreDigits isDigit ('_' :: c :: rest) = moreDigits isDigit (c :: rest) := by
  rw [moreDigits_cons hunderscore hc, moreDigits, if_pos hc]

theorem moreDigits_append {ds cs tail : List Char} (h : DigitsText isDigit ds cs)
    (htail : NoDigit isDigit tail) : moreDigits isDigit (cs ++ tail) = some (ds, tail) := by
  have hend : moreDigits isDigit tail = some ([], tail) := by
    cases tail with
    | nil => rfl
    | cons c rest =>
        obtain ⟨hc, hne⟩ := htail c rfl
        rw [moreDigits]
        · simp [hc]
        · exact fun h _ => hne h
        · exact fun _ _ h _ => hne h
  induction h with
  | @last d hd =>
      rw [List.cons_append, moreDigits_cons hunderscore hd, List.nil_append, hend]
      rfl
  | @next d ds cs hd _ ih =>
      rw [List.cons_append, moreDigits_cons hunderscore hd, ih]
      rfl
  | @underscore d ds cs hd hothers ih =>
      obtain ⟨c, rest, rfl, hc⟩ := hothers.starts
      rw [List.cons_append, moreDigits_cons hunderscore hd, List.cons_append, List.cons_append,
        moreDigits_underscore hunderscore hc, ← List.cons_append, ih]
      rfl

theorem takeDigits_append {ds cs tail : List Char} (h : DigitsText isDigit ds cs)
    (htail : NoDigit isDigit tail) : takeDigits isDigit (cs ++ tail) = some (ds, tail) := by
  have hmore := moreDigits_append hunderscore h htail
  obtain ⟨c, rest, rfl, hc⟩ := h.starts
  rw [List.cons_append] at hmore ⊢
  rw [moreDigits_cons hunderscore hc] at hmore
  exact (if_pos hc).trans hmore

end Digits

theorem DigitsText.no_sign {ds cs : List Char} (h : DecimalsText ds cs) (tail : List Char) :
    ∀ c, (cs ++ tail).head? = some c → c ≠ '-' ∧ c ≠ '+' := by
  obtain ⟨d, rest, rfl, hd⟩ := h.starts
  rintro c ⟨⟩
  constructor <;> rintro rfl <;> exact absurd hd (by decide)

theorem takeDecimals_append {ds cs tail : List Char} (h : DecimalsText ds cs)
    (htail : NoDigit (isDigitOf 10) tail) : takeDecimals (cs ++ tail) = some (ds, tail) :=
  takeDigits_append (by decide) h htail

theorem takeWhole_append {ds cs tail : List Char} (h : WholeText ds cs)
    (htail : NoDigit (isDigitOf 10) tail) : takeWhole (cs ++ tail) = some (ds, tail) := by
  cases h with
  | zero => rfl
  | digits hdigits hfirst =>
      obtain ⟨c, rest, rfl, -⟩ := hdigits.starts
      have hne : c ≠ '0' := by
        rintro rfl
        exact hfirst hdigits.head
      rw [← takeDecimals_append hdigits htail, List.cons_append]
      unfold takeWhole
      split
      case h_1 heq => exact absurd (List.cons.inj heq).1 hne
      case h_2 => rfl

theorem takeSign_append {negative : Bool} {s rest : List Char} (h : SignText negative s)
    (hrest : ∀ c, rest.head? = some c → c ≠ '-' ∧ c ≠ '+') :
    takeSign (s ++ rest) = ((!s.isEmpty, negative), rest) := by
  cases h with
  | none =>
      cases rest with
      | nil => rfl
      | cons c rest =>
          obtain ⟨hminus, hplus⟩ := hrest c rfl
          simp [takeSign, hminus, hplus]
  | plus => rfl
  | minus => rfl

theorem takePlaces_append {places : Option (List Char)} {ps tail : List Char}
    (h : PlacesText places ps) (htail : HeadIn ('e' :: 'E' :: endMarks) tail) :
    takePlaces (ps ++ tail) = some (places, tail) := by
  cases h with
  | none =>
      cases tail with
      | nil => rfl
      | cons c rest =>
          have hc := htail.imp (p := fun c => c != '.') (by decide) rfl
          have hc : c ≠ '.' := by simpa using hc
          simp [takePlaces, hc]
  | some hdigits =>
      show (takeDecimals (_ ++ tail)).map _ = _
      rw [takeDecimals_append hdigits (htail.noDigit (by decide))]
      rfl

theorem takeExponent_append {exponent : Option Int} {es tail : List Char}
    (h : ExponentText exponent es) (htail : HeadIn endMarks tail) :
    takeExponent (es ++ tail) = some (exponent, tail) := by
  cases h with
  | none =>
      cases tail with
      | nil => rfl
      | cons c rest =>
          have hc := htail.imp (p := fun c => c != 'e' && c != 'E') (by decide) rfl
          have hc : c ≠ 'e' ∧ c ≠ 'E' := by simpa using hc
          simp [takeExponent, hc]
  | @some mark negative s ds cs hmarks hsign hdigits =>
      have hmark : takeExponent (mark :: (s ++ cs) ++ tail) =
          takeExponent ('e' :: (s ++ (cs ++ tail))) := by
        rw [List.cons_append, List.append_assoc]
        rcases hmarks with rfl | rfl <;> rfl
      have hsign := takeSign_append hsign (hdigits.no_sign tail)
      have htake := takeDecimals_append hdigits (htail.noDigit (by decide))
      rw [hmark]
      simp [takeExponent, hsign, htake]

/-! ## No date and no time -/

theorem exists_of_takePair {low high n : ℕ} {cs rest : List Char}
    (h : takePair low high cs = some (n, rest)) :
    ∃ a b, cs = [a, b] ++ rest ∧ isDigitOf 10 a = true ∧ isDigitOf 10 b = true := by
  unfold takePair at h
  split at h
  case h_1 a b cs =>
    dsimp only at h
    split_ifs at h with hdigits
    obtain ⟨ha, hb⟩ := Bool.and_eq_true_iff.mp hdigits
    cases h
    exact ⟨a, b, rfl, ha, hb⟩
  case h_2 => cases h

theorem eq_of_takeMark {mark : Char} {cs rest : List Char} (h : takeMark mark cs = some rest) :
    cs = mark :: rest := by
  cases cs with
  | nil => cases h
  | cons c cs =>
      have h : (if c = mark then some cs else none) = some rest := h
      split_ifs at h with hc
      obtain rfl := Option.some.inj h
      rw [hc]

/-- Digits, one at the least, and then a mark. -/
def StartsWith (mark : Char) (cs : List Char) : Prop :=
  ∃ d ds rest, cs = d :: (ds ++ mark :: rest) ∧ ∀ e ∈ d :: ds, isDigitOf 10 e = true

theorem startsWith_of_afterTime? {cs after : List Char} (h : afterTime? cs = some after) :
    StartsWith ':' cs := by
  obtain ⟨⟨hour, cs₁⟩, hhour, h⟩ := Option.bind_eq_some_iff.mp h
  obtain ⟨cs₂, hmark, -⟩ := Option.bind_eq_some_iff.mp h
  obtain ⟨a, b, rfl, ha, hb⟩ := exists_of_takePair hhour
  obtain rfl := eq_of_takeMark hmark
  exact ⟨a, [b], cs₂, rfl, by simp [ha, hb]⟩

theorem startsWith_of_afterDate? {cs after : List Char} (h : afterDate? cs = some after) :
    StartsWith '-' cs := by
  obtain ⟨⟨century, cs₁⟩, hcentury, h⟩ := Option.bind_eq_some_iff.mp h
  obtain ⟨⟨year, cs₂⟩, hyear, h⟩ := Option.bind_eq_some_iff.mp h
  obtain ⟨cs₃, hmark, -⟩ := Option.bind_eq_some_iff.mp h
  obtain ⟨a, b, rfl, ha, hb⟩ := exists_of_takePair hcentury
  obtain ⟨c, d, rfl, hc, hd⟩ := exists_of_takePair hyear
  obtain rfl := eq_of_takeMark hmark
  exact ⟨a, [b, c, d], cs₃, rfl, by simp [ha, hb, hc, hd]⟩

theorem readMoment_none {cs : List Char} (hdate : ¬ StartsWith '-' cs)
    (htime : ¬ StartsWith ':' cs) : readMoment cs = none := by
  have hdate' : afterDate? cs = none :=
    Option.eq_none_iff_forall_ne_some.mpr fun after h => hdate (startsWith_of_afterDate? h)
  have htime' : afterTime? cs = none :=
    Option.eq_none_iff_forall_ne_some.mpr fun after h => htime (startsWith_of_afterTime? h)
  unfold readMoment
  rw [hdate', htime']
  rfl

/-- Behind its first digits, a number goes on with other marks. -/
theorem not_startsWith {mark : Char} (hmark : isDigitOf 10 mark = false) {ds rest : List Char}
    (hds : ∀ d ∈ ds, isDigitOf 10 d = true)
    (hrest : ∀ c, rest.head? = some c → isDigitOf 10 c = false ∧ (ds = [] ∨ c ≠ mark)) :
    ¬ StartsWith mark (ds ++ rest) := by
  rintro ⟨d, ds', tail, heq, hds'⟩
  have hdrop := congrArg (List.dropWhile (isDigitOf 10)) heq
  rw [dropWhile_run_append hds fun c hc => (hrest c hc).1, ← List.cons_append,
    dropWhile_run_append hds' (by rintro _ ⟨⟩; exact hmark)] at hdrop
  subst hdrop
  rcases (hrest mark rfl).2 with rfl | hne
  · obtain rfl := (List.cons.inj heq).1
    rw [hds' mark List.mem_cons_self] at hmark
    cases hmark
  · exact hne rfl

/-! ## Numbers as values -/

theorem DigitsText.exists_prefix {isDigit : Char → Bool} {ds cs : List Char}
    (h : DigitsText isDigit ds cs) :
    ∃ first rest, cs = first ++ rest ∧ (∀ d ∈ first, isDigit d = true) ∧ HeadIn ['_'] rest := by
  induction h with
  | @last d hd => exact ⟨[d], [], rfl, by simpa using hd, nofun⟩
  | @next d ds cs hd _ ih =>
      obtain ⟨first, rest, rfl, hfirst, hrest⟩ := ih
      exact ⟨d :: first, rest, rfl, List.forall_mem_cons.mpr ⟨hd, hfirst⟩, hrest⟩
  | @underscore d ds cs hd _ _ =>
      exact ⟨[d], '_' :: cs, rfl, by simpa using hd, headIn_cons List.mem_cons_self cs⟩

theorem WholeText.exists_prefix {ds cs : List Char} (h : WholeText ds cs) :
    ∃ first rest, cs = first ++ rest ∧ (∀ d ∈ first, isDigitOf 10 d = true) ∧
      HeadIn ['_'] rest := by
  cases h with
  | zero => exact ⟨['0'], [], rfl, List.forall_mem_singleton.mpr (by decide), nofun⟩
  | digits hdigits _ => exact hdigits.exists_prefix

/-- A whole number starts with a digit, and no other digit follows a zero. -/
theorem WholeText.starts {ds cs : List Char} (h : WholeText ds cs) :
    ∃ c rest, cs = c :: rest ∧ isDigitOf 10 c = true ∧ (c = '0' → rest = []) := by
  cases h with
  | zero => exact ⟨'0', [], rfl, by decide, fun _ => rfl⟩
  | digits hdigits hfirst =>
      obtain ⟨c, rest, rfl, hc⟩ := hdigits.starts
      refine ⟨c, rest, rfl, hc, ?_⟩
      rintro rfl
      exact absurd hdigits.head hfirst

theorem headIn_append {marks marks' cs tail : List Char} (h : HeadIn marks cs)
    (htail : HeadIn marks' tail) : HeadIn (marks ++ marks') (cs ++ tail) := by
  cases cs with
  | nil => exact fun c hc => List.mem_append_right _ (htail c hc)
  | cons d cs =>
      rintro c ⟨⟩
      exact List.mem_append_left _ (h d rfl)

theorem ExponentText.headIn {exponent : Option Int} {es : List Char}
    (h : ExponentText exponent es) : HeadIn ['e', 'E'] es := by
  cases h with
  | none => exact nofun
  | some hmarks _ _ => exact headIn_cons (by simpa using hmarks) _

theorem PlacesText.headIn {places : Option (List Char)} {ps : List Char}
    (h : PlacesText places ps) : HeadIn ['.'] ps := by
  cases h with
  | none => exact nofun
  | some => exact headIn_cons (by decide) _

theorem not_startsWith_whole {mark : Char} (hmark : mark = '-' ∨ mark = ':')
    {ds cs tail : List Char}
    (h : WholeText ds cs) (htail : HeadIn partMarks tail) : ¬ StartsWith mark (cs ++ tail) := by
  obtain ⟨first, rest, rfl, hfirst, hrest⟩ := h.exists_prefix
  have hhead := headIn_append hrest htail
  rw [List.append_assoc]
  refine not_startsWith (by rcases hmark with rfl | rfl <;> decide) hfirst ?_
  intro c hc
  have himp := hhead.imp (p := fun c => !isDigitOf 10 c && c != '-' && c != ':') (by decide) hc
  have himp : (isDigitOf 10 c = false ∧ c ≠ '-') ∧ c ≠ ':' := by simpa using himp
  rcases hmark with rfl | rfl
  · exact ⟨himp.1.1, .inr himp.1.2⟩
  · exact ⟨himp.1.1, .inr himp.2⟩

/-- No number is taken for a date or a time. -/
theorem readMoment_whole {ds cs tail : List Char} (h : WholeText ds cs)
    (htail : HeadIn partMarks tail) : readMoment (cs ++ tail) = none :=
  readMoment_none (not_startsWith_whole (.inl rfl) h htail)
    (not_startsWith_whole (.inr rfl) h htail)

theorem readMoment_of_not_digit {c : Char} (hc : isDigitOf 10 c = false) (rest : List Char) :
    readMoment (c :: rest) = none := by
  have hnone : ∀ mark, isDigitOf 10 mark = false → ¬ StartsWith mark (c :: rest) := by
    intro mark hmark
    have hhead : ∀ d, (c :: rest).head? = some d →
        isDigitOf 10 d = false ∧ (([] : List Char) = [] ∨ d ≠ mark) := by
      rintro _ ⟨⟩
      exact ⟨hc, .inl rfl⟩
    exact not_startsWith hmark (List.forall_mem_nil _) hhead
  exact readMoment_none (hnone '-' (by decide)) (hnone ':' (by decide))

theorem readNumber_decimal {negative : Bool} {s : List Char} (hs : SignText negative s) {c : Char}
    (hc : isDigitOf 10 c = true) {rest : List Char} (hrest : c = '0' → HeadIn partMarks rest) :
    readNumber (s ++ c :: rest) = readDecimal negative (c :: rest) := by
  have hsign : ∀ d, (c :: rest).head? = some d → d ≠ '-' ∧ d ≠ '+' := by
    rintro d ⟨⟩
    constructor <;> rintro rfl <;> exact absurd hc (by decide)
  have hletter : c ≠ 'i' ∧ c ≠ 'n' := by
    constructor <;> rintro rfl <;> exact absurd hc (by decide)
  have hbase : ∀ m rest', m ∉ partMarks → c :: rest ≠ '0' :: m :: rest' := by
    rintro m rest' hm heq
    obtain ⟨rfl, rfl⟩ := List.cons.inj heq
    exact hm (hrest rfl m rfl)
  unfold readNumber
  rw [takeSign_append hs hsign]
  split
  case h_1 heq => exact absurd (List.cons.inj (Prod.mk.inj heq).2).1 hletter.1
  case h_2 heq => exact absurd (List.cons.inj (Prod.mk.inj heq).2).1 hletter.2
  case h_3 heq => exact absurd (Prod.mk.inj heq).2 (hbase 'x' _ (by decide))
  case h_4 heq => exact absurd (Prod.mk.inj heq).2 (hbase 'o' _ (by decide))
  case h_5 heq => exact absurd (Prod.mk.inj heq).2 (hbase 'b' _ (by decide))
  case h_6 heq =>
    obtain ⟨hneg, rfl⟩ := Prod.mk.inj heq
    rw [(Prod.mk.inj hneg).2]

theorem readDecimal_append {negative : Bool} {ds cs ps es tail : List Char}
    {places : Option (List Char)} {exponent : Option Int} (hwhole : WholeText ds cs)
    (hplaces : PlacesText places ps) (hexponent : ExponentText exponent es)
    (htail : HeadIn endMarks tail) :
    readDecimal negative (cs ++ (ps ++ (es ++ tail))) =
      (if places.isNone && exponent.isNone then integer? negative ds
        else real? negative (ds ++ places.getD [])
          (exponent.getD 0 - ((places.getD []).length : Int))).map fun d => (d, tail) := by
  have hes := headIn_append hexponent.headIn htail
  have hps := headIn_append hplaces.headIn hes
  have h₁ := takeWhole_append hwhole (hps.noDigit (by decide))
  have h₂ := takePlaces_append hplaces hes
  have h₃ := takeExponent_append hexponent htail
  unfold readDecimal
  rw [h₁]
  show (takePlaces (ps ++ (es ++ tail)) >>= _) = _
  rw [h₂]
  show (takeExponent (es ++ tail) >>= _) = _
  rw [h₃]
  cases places with
  | none =>
      cases exponent with
      | none | some => exact (Option.map_eq_bind ..).symm
  | some => exact (Option.map_eq_bind ..).symm

theorem readBase_append {base : ℕ} {mark : Char} (hmark : BaseMark base mark)
    {ds cs tail : List Char}
    (h : DigitsText (isDigitOf base) ds cs) (hsize : natOfDigits base ds < 2 ^ 63)
    (htail : HeadIn endMarks tail) :
    readNumber ('0' :: mark :: (cs ++ tail)) = some (.integer (natOfDigits base ds), tail) := by
  have hread : ∀ {base : ℕ}, isDigitOf base '_' = false →
      (endMarks.all fun c => !isDigitOf base c && c != '_') = true →
      DigitsText (isDigitOf base) ds cs → natOfDigits base ds < 2 ^ 63 →
      readBase base (cs ++ tail) = some (.integer (natOfDigits base ds), tail) := by
    intro base hunderscore hmarks h hsize
    unfold readBase
    rw [takeDigits_append hunderscore h (htail.noDigit hmarks)]
    exact if_pos hsize
  cases hmark with
  | sixteen | eight | two => exact hread (by decide) (by decide) h hsize

theorem readMoment_based {base : ℕ} {mark : Char} (hmark : BaseMark base mark) (rest : List Char) :
    readMoment ('0' :: mark :: rest) = none := by
  have hletter : isDigitOf 10 mark = false ∧ mark ≠ '-' ∧ mark ≠ ':' := by
    cases hmark <;> decide
  have hnone : ∀ m, isDigitOf 10 m = false → mark ≠ m → ¬ StartsWith m ('0' :: mark :: rest) := by
    intro m hm hne
    have hzero : ∀ d ∈ ['0'], isDigitOf 10 d = true := List.forall_mem_singleton.mpr (by decide)
    have hhead : ∀ d, (mark :: rest).head? = some d →
        isDigitOf 10 d = false ∧ (['0'] = [] ∨ d ≠ m) := by
      rintro _ ⟨⟩
      exact ⟨hletter.1, .inr hne⟩
    exact not_startsWith hm hzero hhead
  exact readMoment_none (hnone '-' (by decide) hletter.2.1) (hnone ':' (by decide) hletter.2.2)

/-- A decimal number is read by its parts, and no date or time is. -/
theorem read_decimal {negative : Bool} {s ds cs ps es tail : List Char}
    {places : Option (List Char)} {exponent : Option Int} (hsign : SignText negative s)
    (hwhole : WholeText ds cs) (hplaces : PlacesText places ps)
    (hexponent : ExponentText exponent es) (htail : HeadIn endMarks tail) :
    readMoment (s ++ (cs ++ (ps ++ (es ++ tail)))) = none ∧
      readNumber (s ++ (cs ++ (ps ++ (es ++ tail)))) =
        (if places.isNone && exponent.isNone then integer? negative ds
          else real? negative (ds ++ places.getD [])
            (exponent.getD 0 - ((places.getD []).length : Int))).map fun d => (d, tail) := by
  have hnext : HeadIn partMarks (ps ++ (es ++ tail)) :=
    headIn_append hplaces.headIn (headIn_append hexponent.headIn htail)
  constructor
  · cases hsign with
    | none =>
        rw [List.nil_append]
        exact readMoment_whole hwhole hnext
    | plus | minus => exact readMoment_of_not_digit (by decide) _
  · rw [← readDecimal_append hwhole hplaces hexponent htail]
    obtain ⟨c, rest, rfl, hc, hzero⟩ := hwhole.starts
    rw [List.cons_append]
    apply readNumber_decimal hsign hc
    intro heq
    rw [hzero heq]
    exact hnext

/-- A number is not taken for another value, nor for a date or a time. -/
theorem NumberText.read {d : Document} {cs : List Char} (h : NumberText d cs) {tail : List Char}
    (htail : HeadIn endMarks tail) :
    readMoment (cs ++ tail) = none ∧ readNumber (cs ++ tail) = some (d, tail) := by
  cases h with
  | @integer negative s ds cs d hsign hwhole hvalue =>
      obtain ⟨hmoment, hnumber⟩ := read_decimal hsign hwhole .none .none htail
      rw [List.append_assoc]
      exact ⟨hmoment, hnumber.trans (congrArg (Option.map fun d => (d, tail)) hvalue)⟩
  | @real negative s ds cs ps es places exponent d hsign hwhole hplaces hexponent hmore hvalue =>
      obtain ⟨hmoment, hnumber⟩ := read_decimal hsign hwhole hplaces hexponent htail
      have hkind : (places.isNone && exponent.isNone) = false := by
        rcases hmore with h | h
        · rw [Option.isNone_eq_false_iff.mpr h, Bool.false_and]
        · rw [Option.isNone_eq_false_iff.mpr h, Bool.and_false]
      simp only [List.append_assoc]
      refine ⟨hmoment, hnumber.trans ?_⟩
      rw [hkind]
      exact congrArg (Option.map fun d => (d, tail)) hvalue
  | @infinite negative s hsign =>
      cases hsign <;> exact ⟨readMoment_of_not_digit (by decide) _, rfl⟩
  | @undefined negative s hsign =>
      cases hsign <;> exact ⟨readMoment_of_not_digit (by decide) _, rfl⟩
  | @based base mark ds cs hmarks hdigits hsize =>
      exact ⟨readMoment_based hmarks _, readBase_append hmarks hdigits hsize htail⟩

/-- A number starts with none of the marks of other values. -/
theorem NumberText.starts {d : Document} {cs : List Char} (h : NumberText d cs) :
    ∃ c rest, cs = c :: rest ∧ (isDigitOf 10 c = true ∨ c ∈ ['-', '+', 'i', 'n']) := by
  have hsigned : ∀ {negative : Bool} {s : List Char}, SignText negative s → ∀ {c : Char},
      (isDigitOf 10 c = true ∨ c ∈ ['-', '+', 'i', 'n']) → ∀ rest, ∃ c' rest',
        s ++ c :: rest = c' :: rest' ∧ (isDigitOf 10 c' = true ∨ c' ∈ ['-', '+', 'i', 'n']) := by
    intro negative s hs c hc rest
    cases hs with
    | none => exact ⟨c, rest, rfl, hc⟩
    | plus | minus => exact ⟨_, _, rfl, .inr (by decide)⟩
  cases h with
  | integer hsign hwhole hvalue =>
      obtain ⟨c, rest, rfl, hc, -⟩ := hwhole.starts
      exact hsigned hsign (.inl hc) rest
  | real hsign hwhole =>
      obtain ⟨c, rest, rfl, hc, -⟩ := hwhole.starts
      exact hsigned hsign (.inl hc) _
  | infinite hsign | undefined hsign => exact hsigned hsign (.inr (by decide)) _
  | based => exact ⟨'0', _, rfl, .inl (by decide)⟩

theorem ne_of_number_start {c d : Char} (hc : isDigitOf 10 c = true ∨ c ∈ ['-', '+', 'i', 'n'])
    (hd : isDigitOf 10 d = false ∧ d ∉ ['-', '+', 'i', 'n']) : c ≠ d := by
  rintro rfl
  rcases hc with hc | hc
  · rw [hd.1] at hc
    cases hc
  · exact hd.2 hc

end GrowthCurve.Toml
