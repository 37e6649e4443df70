import Mathlib.Data.List.TakeWhile
import ReleaseRunner.Proofs.Version.Layout

/-!
# The formats that are refused

A format is read word by word, where words are parted by delimiters. It is refused for what its
first words stand for, and for months, weeks and days that do not go together wherever they stand
(`Refused`). All else is accepted: behind the words that are tokens in their documented order
(`frontWords`) any text may follow. So every documented format is accepted, but not only these
(`Format.read_error_iff`).

The words are those of the whole text, while the reader goes on with what remains of it. Each
token that is taken moves the words of the rest up by one place (`slotAt_of_takeToken?`).
-/

namespace ReleaseRunner.Version

open Text

/-! ## The words of a format -/

/-- What the word at a place of a text stands for, if it is a token. The words are counted from
nought. -/
def slotAt (text : List Char) (i : Nat) : Option Slot :=
  (text.splitOnP isDelimiter)[i]?.bind fun word => (Token.ofText? word).map Token.slot

/-- A token for the number stands somewhere in the text, as a word or within one. -/
def Mentioned (text : List Char) (slot : Slot) : Prop :=
  ∃ t : Token, t.slot = slot ∧ t.text.toList <:+: text

/-! ## What is refused -/

/-- A date may not follow the year in this text, if its first word stands for the given number. -/
inductive DateRefused (text : List Char) : Option Slot → FormatFault → Prop where
  | monthsAndWeeks : Mentioned text .week → DateRefused text (some .month) .monthsAndWeeks
  | weeksAndMonths : Mentioned text .month → DateRefused text (some .week) .weeksAndMonths
  | weeksAndDays : ¬Mentioned text .month → Mentioned text .day →
    DateRefused text (some .week) .weeksAndDays

/-- Two counters may not follow each other. -/
inductive CountersRefused : Option Slot → Option Slot → FormatFault → Prop where
  | microTwice : CountersRefused (some .micro) (some .micro) .microTwice
  | minorAfterMicro : CountersRefused (some .micro) (some .minor) .minorAfterMicro
  | minorTwice : CountersRefused (some .minor) (some .minor) .minorTwice

/-- How many words a date takes, by what the first two of them stand for. -/
def dateWords : Option Slot → Option Slot → Nat
  | some .month, some .day => 2
  | some .month, _ => 1
  | some .week, _ => 1
  | _, _ => 0

/-- What is wrong with a format: the first word is no year, or the date is refused that follows
it, or the two words behind the date are counters that do not go together. -/
inductive Refused (text : List Char) : FormatFault → Prop where
  | noYear : slotAt text 0 ≠ some .year → Refused text .noYear
  | date {fault : FormatFault} : slotAt text 0 = some .year →
    DateRefused text (slotAt text 1) fault → Refused text fault
  | counters {fault : FormatFault} {i : Nat} : slotAt text 0 = some .year →
    (∀ other, ¬DateRefused text (slotAt text 1) other) →
    i = dateWords (slotAt text 1) (slotAt text 2) →
    CountersRefused (slotAt text (i + 1)) (slotAt text (i + 2)) fault → Refused text fault

/-! ## What is read -/

/-- How many words counters take, by what the first two of them stand for. -/
def counterWords : Option Slot → Option Slot → Nat
  | some .minor, some .micro => 2
  | some .minor, _ => 1
  | some .micro, _ => 1
  | _, _ => 0

/-- How many words the year, the date and the counters take. -/
def frontWords (text : List Char) : Nat :=
  let i := dateWords (slotAt text 1) (slotAt text 2)
  1 + i + counterWords (slotAt text (i + 1)) (slotAt text (i + 2))

/-- The separator that a delimiter makes. A bracket makes the character behind it the separator. -/
def separatorAt (delimiter : Char) (rest : List Char) : Char :=
  if delimiter = '[' then rest.head?.getD delimiter else delimiter

/-- The text begins with the tokens, each with a delimiter behind it, and goes on with the tail.
A token at the end of the text needs no delimiter. -/
inductive Opens : List Element → List Char → List Char → Prop where
  | nil (text : List Char) : Opens [] text text
  | last (t : Token) : Opens [⟨t, none⟩] t.text.toList []
  | cons {t : Token} {c : Char} {es : List Element} {text tail : List Char} :
    isDelimiter c = true → Opens es text tail →
    Opens (⟨t, some (separatorAt c text)⟩ :: es) (t.text.toList ++ c :: text) tail

/-! ## Taking a token -/

private theorem mentions_iff {text : List Char} {slot : Slot} :
    mentions text slot = true ↔ Mentioned text slot := by
  unfold mentions Mentioned
  simp only [List.any_eq_true, Bool.and_eq_true, beq_iff_eq, occursIn_iff_isInfix]
  exact ⟨fun ⟨t, _, h⟩ => ⟨t, h⟩, fun ⟨t, h⟩ => ⟨t, Token.mem_all t, h⟩⟩

private theorem text_of_ofText? {word : List Char} {t : Token} (h : Token.ofText? word = some t) :
    t.text.toList = word := by
  have hfound := List.find?_some h
  exact beq_iff_eq.mp hfound

/-- A text is its first word, or has a delimiter behind it. -/
private theorem takeText_cases (s : List Char) :
    (takeText s = (s, none, []) ∧ ∀ c ∈ s, isDelimiter c = false) ∨
      ∃ word c rest, takeText s = (word, some (separatorAt c rest), rest) ∧
        s = word ++ c :: rest ∧ isDelimiter c = true ∧ ∀ d ∈ word, isDelimiter d = false := by
  have hword : ∀ d ∈ s.takeWhile (!isDelimiter ·), isDelimiter d = false := by
    intro d hd
    simpa using List.mem_takeWhile_imp hd
  have hsplit := List.takeWhile_append_dropWhile (p := (!isDelimiter ·)) (l := s)
  unfold takeText
  cases hdrop : s.dropWhile (!isDelimiter ·) with
  | nil =>
    rw [hdrop, List.append_nil] at hsplit
    rw [hsplit] at hword
    left
    dsimp only
    rw [hsplit]
    exact ⟨rfl, hword⟩
  | cons c rest =>
    rw [hdrop] at hsplit
    have hdelimiter : isDelimiter c = true := by
      have hhead := List.head_dropWhile_not (!isDelimiter ·) (l := s) (by rw [hdrop]; simp)
      simpa [hdrop] using hhead
    right
    -- a bracket makes the character behind it the separator, but the rest is the same
    split
    · next heq => cases heq
    · next heq =>
      obtain ⟨rfl, rfl⟩ := List.cons.inj heq
      exact ⟨_, _, _, rfl, hsplit.symm, hdelimiter, hword⟩
    · next hother heq =>
      obtain ⟨rfl, rfl⟩ := List.cons.inj heq
      have hseparator : separatorAt c rest = c := by
        unfold separatorAt
        split
        · next hbracket =>
          subst hbracket
          cases rest with
          | nil => rfl
          | cons d rest => exact absurd rfl (hother d rest rfl)
        · rfl
      exact ⟨_, _, _, by rw [hseparator], hsplit.symm, hdelimiter, hword⟩

/-- The first word is what is taken, and the others are those of the rest. -/
private theorem slotAt_takeText (s : List Char) :
    slotAt s 0 = (Token.ofText? (takeText s).1).map Token.slot ∧
      ∀ i, slotAt s (i + 1) = slotAt (takeText s).2.2 i := by
  rcases takeText_cases s with ⟨htake, hword⟩ | ⟨word, c, rest, htake, rfl, hc, hword⟩
  · rw [htake]
    unfold slotAt
    rw [List.splitOnP_eq_singleton hword]
    refine ⟨rfl, fun i => ?_⟩
    -- behind the last word there is nothing, and nothing is no token
    cases i with
    | zero => rfl
    | succ i => rfl
  · rw [htake]
    unfold slotAt
    rw [List.splitOnP_append_cons_of_forall_mem hword c hc]
    exact ⟨rfl, fun i => rfl⟩

section
variable {slots : List Slot} {s rest : List Char} {e : Element}

private theorem takeToken?_eq_none (h : takeToken? slots s = none) :
    ∀ slot ∈ slots, slotAt s 0 ≠ some slot := by
  intro slot hslot
  rw [(slotAt_takeText s).1]
  unfold takeToken? at h
  dsimp only at h
  split at h
  · next t ht =>
    rw [ht]
    rintro hsame
    cases hsame
    simp [hslot] at h
  · next ht =>
    rw [ht]
    exact nofun

theorem slotAt_of_takeToken? (h : takeToken? slots s = some (e, rest)) :
    slotAt s 0 = some e.token.slot ∧ e.token.slot ∈ slots ∧
      (∀ i, slotAt s (i + 1) = slotAt rest i) ∧ Opens [e] s rest := by
  obtain ⟨hfirst, hothers⟩ := slotAt_takeText s
  unfold takeToken? at h
  dsimp only at h
  split at h
  · next t ht =>
    split at h
    · next hslot =>
      cases h
      rw [ht] at hfirst
      refine ⟨hfirst, by simpa using hslot, hothers, ?_⟩
      have htext := text_of_ofText? ht
      rcases takeText_cases s with ⟨htake, -⟩ | ⟨word, c, rest, htake, hs, hc, -⟩
      · rw [htake] at htext ⊢
        rw [← show t.text.toList = s from htext]
        exact .last t
      · rw [htake] at htext ⊢
        rw [hs, ← show t.text.toList = word from htext]
        exact .cons hc (.nil rest)
    · cases h
  · cases h

end

/-! ## Tokens one after the other -/

private theorem Opens.of_nil {es : List Element} {tail : List Char} (h : Opens es [] tail) :
    es = [] ∧ tail = [] := by
  generalize hs : ([] : List Char) = s at h
  cases h with
  | nil => exact ⟨rfl, rfl⟩
  | last t => exact absurd hs.symm (token_ne_nil t)
  | cons => simp at hs

/-- Tokens may be taken in two goes. -/
private theorem Opens.append {es es' : List Element} {s rest tail : List Char} (h : Opens es s rest)
    (h' : Opens es' rest tail) : Opens (es ++ es') s tail := by
  induction h with
  | nil s => exact h'
  | last t =>
    obtain ⟨rfl, rfl⟩ := h'.of_nil
    exact .last t
  | cons hc _ ih => exact .cons hc (ih h')

/-! ## The counters -/

/-- What the counters of a text are read as. -/
inductive CountersRead (s : List Char) : Except FormatFault (List Element × List Char) → Prop where
  | refused {fault : FormatFault} : CountersRefused (slotAt s 0) (slotAt s 1) fault →
    CountersRead s (.error fault)
  | read {es : List Element} {rest : List Char} :
    (∀ fault, ¬CountersRefused (slotAt s 0) (slotAt s 1) fault) →
    es.length = counterWords (slotAt s 0) (slotAt s 1) →
    es.map (·.token) ∈ [[], [.minor], [.micro], [.minor, .micro]] → Opens es s rest →
    CountersRead s (.ok (es, rest))

private theorem CountersRefused.first {slot slot' : Option Slot} {fault : FormatFault}
    (h : CountersRefused slot slot' fault) : slot = some .minor ∨ slot = some .micro := by
  cases h with
  | microTwice => exact .inr rfl
  | minorAfterMicro => exact .inr rfl
  | minorTwice => exact .inl rfl

private theorem CountersRefused.second {slot slot' : Option Slot} {fault : FormatFault}
    (h : CountersRefused slot slot' fault) : slot' = some .minor ∨ slot' = some .micro := by
  cases h with
  | microTwice => exact .inr rfl
  | minorAfterMicro => exact .inl rfl
  | minorTwice => exact .inl rfl

private theorem counterWords_of_ne {slot slot' : Option Slot} (hminor : slot ≠ some .minor)
    (hmicro : slot ≠ some .micro) : counterWords slot slot' = 0 := by
  unfold counterWords
  split
  · exact absurd rfl hminor
  · exact absurd rfl hminor
  · exact absurd rfl hmicro
  · rfl

private theorem counterWords_minor {slot' : Option Slot} (h : slot' ≠ some .micro) :
    counterWords (some .minor) slot' = 1 := by
  cases slot' with
  | none => rfl
  | some slot =>
    cases slot with
    | micro => exact absurd rfl h
    | _ => rfl

private theorem counter_of_slot {t : Token} (h : t.slot ∈ [Slot.minor, .micro]) :
    t = .minor ∨ t = .micro := by
  revert h
  cases t <;> decide

/-- Counters are refused, or they are read in their order. -/
private theorem readCounters_read (s : List Char) : CountersRead s (readCounters s) := by
  unfold readCounters
  cases hfirst : takeToken? [.minor, .micro] s with
  | none =>
    have hminor := takeToken?_eq_none hfirst .minor (by decide)
    have hmicro := takeToken?_eq_none hfirst .micro (by decide)
    refine .read (fun fault h => ?_) (counterWords_of_ne hminor hmicro).symm (by simp) (.nil s)
    rcases h.first with hslot | hslot
    · exact hminor hslot
    · exact hmicro hslot
  | some taken =>
    obtain ⟨⟨t, separator⟩, rest⟩ := taken
    obtain ⟨hslot, hmem, hrest, hopens⟩ := slotAt_of_takeToken? hfirst
    dsimp only
    cases hsecond : takeToken? [.minor, .micro] rest with
    | none =>
      have hminor := takeToken?_eq_none hsecond .minor (by decide)
      have hmicro := takeToken?_eq_none hsecond .micro (by decide)
      refine .read (fun fault h => ?_) ?_ ?_ hopens
      · rw [hrest 0] at h
        rcases h.second with hslot | hslot
        · exact hminor hslot
        · exact hmicro hslot
      · rw [hslot, hrest 0]
        rcases counter_of_slot hmem with rfl | rfl
        · exact (counterWords_minor hmicro).symm
        · rfl
      · rcases counter_of_slot hmem with rfl | rfl
        · simp
        · simp
    | some taken =>
      obtain ⟨⟨t', separator'⟩, rest'⟩ := taken
      obtain ⟨hslot', hmem', -, hopens'⟩ := slotAt_of_takeToken? hsecond
      have hrefused : ∀ fault, CountersRefused (some t.slot) (some t'.slot) fault →
          CountersRead s (.error fault) := by
        intro fault h
        rw [← hslot', ← hrest 0] at h
        exact .refused (hslot ▸ h)
      rcases counter_of_slot hmem with rfl | rfl
      · rcases counter_of_slot hmem' with rfl | rfl
        · exact hrefused _ .minorTwice
        · refine .read ?_ ?_ (by simp) (hopens.append hopens')
          · rw [hslot, hrest 0, hslot']
            exact nofun
          · rw [hslot, hrest 0, hslot']
            rfl
      · rcases counter_of_slot hmem' with rfl | rfl
        · exact hrefused _ .minorAfterMicro
        · exact hrefused _ .microTwice

/-! ## The date -/

/-- What the date of a text is read as, which may have a year in front of it. -/
inductive DateRead (text s : List Char) :
    Except FormatFault (List Element × List Char) → Prop where
  | refused {fault : FormatFault} : DateRefused text (slotAt s 0) fault →
    DateRead text s (.error fault)
  | read {es : List Element} {rest : List Char} (date : DateForm) :
    (∀ fault, ¬DateRefused text (slotAt s 0) fault) →
    es.length = dateWords (slotAt s 0) (slotAt s 1) →
    (∀ i, slotAt s (es.length + i) = slotAt rest i) →
    es.map (·.token) = date.fields.map (·.2) → Opens es s rest → DateRead text s (.ok (es, rest))

private theorem month_of_slot {t : Token} (h : t.slot = .month) :
    ∃ b : Bool, t = if b then .paddedMonth else .month := by
  cases t with
  | month => exact ⟨false, rfl⟩
  | paddedMonth => exact ⟨true, rfl⟩
  | _ => cases h

private theorem week_of_slot {t : Token} (h : t.slot = .week) :
    ∃ b : Bool, t = if b then .paddedWeek else .week := by
  cases t with
  | week => exact ⟨false, rfl⟩
  | paddedWeek => exact ⟨true, rfl⟩
  | _ => cases h

private theorem day_of_slot {t : Token} (h : t.slot = .day) :
    ∃ b : Bool, t = if b then .paddedDay else .day := by
  cases t with
  | day => exact ⟨false, rfl⟩
  | paddedDay => exact ⟨true, rfl⟩
  | _ => cases h

private theorem dateWords_of_ne {slot slot' : Option Slot} (hmonth : slot ≠ some .month)
    (hweek : slot ≠ some .week) : dateWords slot slot' = 0 := by
  unfold dateWords
  split
  · exact absurd rfl hmonth
  · exact absurd rfl hmonth
  · exact absurd rfl hweek
  · rfl

private theorem dateWords_month {slot' : Option Slot} (h : slot' ≠ some .day) :
    dateWords (some .month) slot' = 1 := by
  cases slot' with
  | none => rfl
  | some slot =>
    cases slot with
    | day => exact absurd rfl h
    | _ => rfl

section
variable {text s rest rest' : List Char} {e d : Element} {slots slots' : List Slot}

/-- There need not be a date. -/
private theorem DateRead.none (hfirst : takeToken? [.month, .week] s = none) :
    DateRead text s (.ok ([], s)) := by
  have hmonth := takeToken?_eq_none hfirst .month (by decide)
  have hweek := takeToken?_eq_none hfirst .week (by decide)
  refine .read .none (fun fault h => ?_) (dateWords_of_ne hmonth hweek).symm (fun i => ?_) rfl
    (.nil s)
  · generalize slotAt s 0 = slot at h hmonth hweek
    cases h with
    | monthsAndWeeks => exact hmonth rfl
    | weeksAndMonths => exact hweek rfl
    | weeksAndDays => exact hweek rfl
  · rw [List.length_nil, Nat.zero_add]

private theorem not_dateRefused_month (hweek : ¬Mentioned text .week) :
    ∀ fault, ¬DateRefused text (some .month) fault := by
  rintro fault ⟨hmentioned⟩
  exact hweek hmentioned

private theorem DateRead.month (htaken : takeToken? slots s = some (e, rest))
    (he : e.token.slot = .month) (hweek : ¬Mentioned text .week)
    (hday : slotAt rest 0 ≠ some .day) : DateRead text s (.ok ([e], rest)) := by
  obtain ⟨hslot, -, hrest, hopens⟩ := slotAt_of_takeToken? htaken
  obtain ⟨b, hb⟩ := month_of_slot he
  rw [he] at hslot
  refine .read (.month .point b) ?_ ?_ (fun i => ?_) (by simp [DateForm.fields, hb]) hopens
  · rw [hslot]
    exact not_dateRefused_month hweek
  · rw [hslot, hrest 0, dateWords_month hday]
    rfl
  · rw [Nat.add_comm]
    exact hrest i

private theorem DateRead.monthAndDay (htaken : takeToken? slots s = some (e, rest))
    (he : e.token.slot = .month) (hweek : ¬Mentioned text .week)
    (htaken' : takeToken? slots' rest = some (d, rest')) (hd : d.token.slot = .day) :
    DateRead text s (.ok ([e, d], rest')) := by
  obtain ⟨hslot, -, hrest, hopens⟩ := slotAt_of_takeToken? htaken
  obtain ⟨hslot', -, hrest', hopens'⟩ := slotAt_of_takeToken? htaken'
  obtain ⟨b, hb⟩ := month_of_slot he
  obtain ⟨b', hb'⟩ := day_of_slot hd
  rw [he] at hslot
  rw [hd] at hslot'
  refine .read (.monthAndDay .point b .point b') ?_ ?_ (fun i => ?_)
    (by simp [DateForm.fields, hb, hb']) (hopens.append hopens')
  · rw [hslot]
    exact not_dateRefused_month hweek
  · rw [hslot, hrest 0, hslot']
    rfl
  · rw [Nat.add_comm]
    exact (hrest (i + 1)).trans (hrest' i)

private theorem DateRead.week (htaken : takeToken? slots s = some (e, rest))
    (he : e.token.slot = .week) (hmonth : ¬Mentioned text .month) (hday : ¬Mentioned text .day) :
    DateRead text s (.ok ([e], rest)) := by
  obtain ⟨hslot, -, hrest, hopens⟩ := slotAt_of_takeToken? htaken
  obtain ⟨b, hb⟩ := week_of_slot he
  rw [he] at hslot
  refine .read (.week .point b) ?_ ?_ (fun i => ?_) (by simp [DateForm.fields, hb]) hopens
  · rw [hslot]
    rintro fault (_ | hmentioned | ⟨-, hmentioned⟩)
    · exact hmonth hmentioned
    · exact hday hmentioned
  · rw [hslot]
    rfl
  · rw [Nat.add_comm]
    exact hrest i

end

/-- A date is refused, or it is read and the words behind it are left. -/
private theorem readDate_read (text s : List Char) : DateRead text s (readDate text s) := by
  unfold readDate
  cases hfirst : takeToken? [.month, .week] s with
  | none => exact .none hfirst
  | some taken =>
    obtain ⟨e, rest⟩ := taken
    obtain ⟨hslot, hmem, -⟩ := slotAt_of_takeToken? hfirst
    have hrefused : ∀ fault, DateRefused text (some e.token.slot) fault →
        DateRead text s (.error fault) := fun fault h => .refused (hslot ▸ h)
    dsimp only
    split
    · next hmonth =>
      have hmonth : e.token.slot = .month := beq_iff_eq.mp hmonth
      rw [hmonth] at hrefused
      split
      · next hweek => exact hrefused _ (.monthsAndWeeks (mentions_iff.mp hweek))
      · next hweek =>
        have hweek := mt mentions_iff.mpr hweek
        cases hsecond : takeToken? [.day] rest with
        | none => exact .month hfirst hmonth hweek (takeToken?_eq_none hsecond .day (by decide))
        | some taken =>
          obtain ⟨d, rest'⟩ := taken
          have hday := (slotAt_of_takeToken? hsecond).2.1
          exact .monthAndDay hfirst hmonth hweek hsecond (List.mem_singleton.mp hday)
    · next hother =>
      have hweek : e.token.slot = .week := by
        have hother : e.token.slot ≠ .month := by simpa using hother
        simpa [hother] using hmem
      rw [hweek] at hrefused
      split
      · next hmonth => exact hrefused _ (.weeksAndMonths (mentions_iff.mp hmonth))
      · next hmonth =>
        have hmonth := mt mentions_iff.mpr hmonth
        split
        · next hday => exact hrefused _ (.weeksAndDays hmonth (mentions_iff.mp hday))
        · next hday => exact .week hfirst hweek hmonth (mt mentions_iff.mpr hday)

/-! ## The whole format -/

private theorem DateRefused.unique {text : List Char} {slot : Option Slot}
    {fault fault' : FormatFault} (h : DateRefused text slot fault)
    (h' : DateRefused text slot fault') : fault = fault' := by
  cases h with
  | monthsAndWeeks =>
    cases h'
    rfl
  | weeksAndMonths hmonth =>
    cases h' with
    | weeksAndMonths => rfl
    | weeksAndDays hnot => exact absurd hmonth hnot
  | weeksAndDays hnot =>
    cases h' with
    | weeksAndMonths hmonth => exact absurd hmonth hnot
    | weeksAndDays => rfl

private theorem CountersRefused.unique {slot slot' : Option Slot} {fault fault' : FormatFault}
    (h : CountersRefused slot slot' fault) (h' : CountersRefused slot slot' fault') :
    fault = fault' := by
  cases h with
  | microTwice => cases h'; rfl
  | minorAfterMicro => cases h'; rfl
  | minorTwice => cases h'; rfl

/-- Only one thing is said to be wrong with a format. -/
theorem Refused.unique {text : List Char} {fault fault' : FormatFault} (h : Refused text fault)
    (h' : Refused text fault') : fault = fault' := by
  cases h with
  | noYear hyear =>
    cases h' with
    | noYear => rfl
    | date hyear' => exact absurd hyear' hyear
    | counters hyear' => exact absurd hyear' hyear
  | date hyear hdate =>
    cases h' with
    | noYear hnot => exact absurd hyear hnot
    | date _ hdate' => exact hdate.unique hdate'
    | counters _ hfine => exact absurd hdate (hfine _)
  | counters hyear hfine hi hcounters =>
    cases h' with
    | noYear hnot => exact absurd hyear hnot
    | date _ hdate => exact absurd hdate (hfine _)
    | counters _ _ hi' hcounters' =>
      subst hi hi'
      exact hcounters.unique hcounters'

/-- The tokens of a format without a modifier. -/
private theorem exists_layout (year : YearForm) (date : DateForm) {ts : List Token}
    (h : ts ∈ [[], [.minor], [.micro], [.minor, .micro]]) :
    ∃ L : Layout, L.tokens = year.token :: (date.fields.map (·.2) ++ ts) := by
  have hmake : ∀ minor micro : Option Separator,
      ts = minor.toList.map (fun _ => Token.minor) ++ micro.toList.map (fun _ => Token.micro) →
      ∃ L : Layout, L.tokens = year.token :: (date.fields.map (·.2) ++ ts) := by
    rintro minor micro rfl
    refine ⟨⟨year, date, minor, micro, .none⟩, ?_⟩
    simp only [Layout.tokens, Layout.fields, Layout.counters, List.map_append, List.map_map]
    rfl
  simp only [List.mem_cons, List.not_mem_nil, or_false] at h
  rcases h with rfl | rfl | rfl | rfl
  · exact hmake none none rfl
  · exact hmake (some .point) none rfl
  · exact hmake none (some .point) rfl
  · exact hmake (some .point) (some .point) rfl

private theorem year_of_slot {t : Token} (h : t.slot = .year) :
    ∃ year : YearForm, t = year.token := by
  cases t with
  | fullYear => exact ⟨.full, rfl⟩
  | shortYear => exact ⟨.short, rfl⟩
  | paddedYear => exact ⟨.padded, rfl⟩
  | _ => cases h

/-- What the tokens in front of a text are read as. -/
inductive ElementsRead (text : List Char) :
    Except FormatFault (List Element × List Char) → Prop where
  | refused {fault : FormatFault} : Refused text fault → ElementsRead text (.error fault)
  | read {es : List Element} {tail : List Char} (L : Layout) : (∀ fault, ¬Refused text fault) →
    es.map (·.token) = L.tokens → es.length = frontWords text → Opens es text tail →
    ElementsRead text (.ok (es, tail))

/-- A format is refused, or its tokens are read in their documented order up to a tail. -/
theorem readElements_read (text : List Char) :
    ElementsRead text (readElements text) := by
  unfold readElements
  cases hfirst : takeToken? [.year] text with
  | none => exact .refused (.noYear (takeToken?_eq_none hfirst .year (by decide)))
  | some taken =>
    obtain ⟨e, s⟩ := taken
    obtain ⟨hslot, hmem, hrest, hopens⟩ := slotAt_of_takeToken? hfirst
    have hyear : e.token.slot = .year := List.mem_singleton.mp hmem
    obtain ⟨year, he⟩ := year_of_slot hyear
    rw [hyear] at hslot
    have hdate := readDate_read text s
    dsimp only
    cases hresult : readDate text s with
    | error fault =>
      rw [hresult] at hdate
      obtain ⟨hrefused⟩ := hdate
      exact .refused (.date hslot (hrest 0 ▸ hrefused))
    | ok taken =>
      obtain ⟨ds, rest⟩ := taken
      rw [hresult] at hdate
      cases hdate with
      | read date hfine hlength hafter hds hopens' =>
        rw [← hrest 0] at hfine
        rw [← hrest 0, ← hrest 1] at hlength
        -- the words behind the date are found in the whole text, one place further on
        have hbehind : ∀ i, slotAt text (ds.length + (i + 1)) = slotAt rest i := fun i =>
          (hrest (ds.length + i)).trans (hafter i)
        have hcounters := readCounters_read rest
        show ElementsRead text (readCounters rest >>= _)
        cases hresult' : readCounters rest with
        | error fault =>
          rw [hresult'] at hcounters
          obtain ⟨hrefused⟩ := hcounters
          rw [← hbehind 0, ← hbehind 1] at hrefused
          exact .refused (.counters hslot hfine hlength hrefused)
        | ok taken =>
          obtain ⟨cs, tail⟩ := taken
          rw [hresult'] at hcounters
          cases hcounters with
          | read hfine' hlength' hcs hopens'' =>
            rw [← hbehind 0, ← hbehind 1] at hfine' hlength'
            obtain ⟨L, hL⟩ := exists_layout year date hcs
            refine .read L ?_ ?_ ?_ (hopens.append (hopens'.append hopens''))
            · rintro fault (hnot | ⟨-, hrefused⟩ | ⟨-, -, rfl, hrefused⟩)
              · exact hnot hslot
              · exact hfine fault hrefused
              · rw [← hlength] at hrefused
                exact hfine' fault hrefused
            · rw [hL, List.map_append, List.map_cons, hds, he]
              rfl
            · unfold frontWords
              dsimp only
              rw [← hlength, ← hlength', List.length_append, List.length_cons, Nat.add_comm 1]

/-! ## The main theorem -/

/-- Exactly the formats are refused that have something wrong with them, and the error names it.
Of any other format the words in front are read as tokens, in their documented order, and what
follows them is the tail. In this way every documented format is read. -/
theorem Format.read_error_iff (fmt : String) :
    (∀ error, Format.read fmt = .error error ↔
      error.text = stripped fmt.toList ∧ Refused (stripped fmt.toList) error.fault) ∧
    (∀ format, Format.read fmt = .ok format → format.text = stripped fmt.toList ∧
      (∃ L : Layout, format.elements.map (·.token) = L.tokens) ∧
      format.elements.length = frontWords format.text ∧
      Opens format.elements format.text format.tail) ∧
    ∀ L : Layout, stripped fmt.toList = L.text →
      Format.read fmt = .ok ⟨L.text, L.elements, L.modifier.tail⟩ := by
  have helements := readElements_read (stripped fmt.toList)
  refine ⟨fun error => ?_, fun format hread => ?_, fun L => read_layout⟩
  · unfold Format.read
    dsimp only
    generalize readElements (stripped fmt.toList) = result at helements
    cases helements with
    | refused hrefused =>
      constructor
      · rintro ⟨⟩
        exact ⟨rfl, hrefused⟩
      · obtain ⟨text, fault'⟩ := error
        rintro ⟨rfl, hrefused'⟩
        rw [hrefused.unique hrefused']
    | read L hfine => exact ⟨nofun, fun h => absurd h.2 (hfine _)⟩
  · unfold Format.read at hread
    dsimp only at hread
    generalize readElements (stripped fmt.toList) = result at helements hread
    cases helements with
    | refused => cases hread
    | read L _ htokens hlength hopens =>
      cases hread
      exact ⟨rfl, ⟨L, htokens⟩, hlength, hopens⟩

/-- A format that is not documented and is read: behind both counters nothing is refused, not even
one of them again. -/
theorem Format.read_microAgain :
    (∃ format, Format.read "YYYY.MINOR.MICRO.MICRO" = .ok format) ∧
      ¬∃ L : Layout, stripped "YYYY.MINOR.MICRO.MICRO".toList = L.text := by
  have hread : (Format.read "YYYY.MINOR.MICRO.MICRO").map (·.tail) = .ok "MICRO".toList := by
    decide
  constructor
  · cases hok : Format.read "YYYY.MINOR.MICRO.MICRO" with
    | ok format => exact ⟨format, rfl⟩
    | error error =>
      rw [hok] at hread
      cases hread
  · rintro ⟨L, hL⟩
    rw [read_layout hL] at hread
    have htail : L.modifier.tail = "MICRO".toList := Except.ok.inj hread
    cases hform : L.modifier with
    | none =>
      rw [hform] at htail
      exact absurd htail (by decide)
    | required s =>
      rw [hform] at htail
      cases s <;> exact absurd htail (by decide)
    | optional s =>
      rw [hform] at htail
      cases s <;> exact absurd htail (by decide)

end ReleaseRunner.Version
