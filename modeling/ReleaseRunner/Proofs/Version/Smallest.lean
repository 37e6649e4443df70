import ReleaseRunner.Proofs.Version.Precedence
import ReleaseRunner.Proofs.Version.Printing

/-!
# The smallest version of a format

The smallest version of a format is read from the format itself, once a placeholder is put in for
each token and for the modifier. The main statement is what comes of this under a documented
format (`CalVer.smallest_layout`). For a year of up to three digits the placeholder is nought, and
as no such year is nought, what was put together is refused. Under the other formats it is read,
and all versions have numbers as high as its own. But a modifier may begin with a hyphen, and so
comes before the placeholder, which is a letter.
-/

namespace ReleaseRunner.Version

open Text Number

/-! ## The placeholders -/

/-- The placeholder of a token. -/
def Token.least : Token → String
  | fullYear => "2000"
  | shortYear | paddedYear => "0"
  | month | week | day => "1"
  | paddedMonth | paddedWeek | paddedDay => "01"
  | minor | micro => "0"

/-- The placeholders, as the texts of a version. -/
def Layout.least (L : Layout) : Reading where
  text slot := (L.tokens.find? (·.slot == slot)).elim [] (·.least.toList)
  modifier := if L.modifier = .none then none else some ['A']

/-- What the format becomes with the placeholders in it. -/
def Layout.leastText (L : Layout) : List Char :=
  L.worded (fun t => L.least.text t.slot) (L.modifier.spelled L.least.modifier)

private theorem placeholders_eq :
    CalVer.placeholders = (Token.all.map fun t => (t.text, some t.least)) ++
      [("MODIFIER", some "A"), ("[", some ""), ("]", some "")] :=
  rfl

private theorem isDigit_of_mem_least {t : Token} {c : Char} (h : c ∈ t.least.toList) :
    isDigit c = true := by
  have hall : t.least.toList.all isDigit = true := by
    cases t <;> decide
  exact List.all_eq_true.mp hall c h

/-- A placeholder may stand in the place of its token, unless it is that of a short year. -/
private theorem admits_least_iff (t : Token) :
    t.Admits t.least.toList ↔ t ≠ .shortYear ∧ t ≠ .paddedYear := by
  have hnought : ∀ padding, ¬Numbers (numeral padding) 1 999 ['0'] := by
    rintro padding ⟨n, hlow, -, hn⟩
    have hvalue : valueOf ['0'] = n := by rw [hn, valueOf_numeral]
    have hzero : valueOf ['0'] = 0 := by decide
    omega
  cases t with
  | fullYear => exact iff_of_true ⟨2000, by decide⟩ (by decide)
  | shortYear => exact iff_of_false (hnought false) (by decide)
  | paddedYear => exact iff_of_false (hnought true) (by decide)
  | month => exact iff_of_true ⟨1, by decide⟩ (by decide)
  | paddedMonth => exact iff_of_true ⟨1, by decide⟩ (by decide)
  | week => exact iff_of_true ⟨1, by decide⟩ (by decide)
  | paddedWeek => exact iff_of_true ⟨1, by decide⟩ (by decide)
  | day => exact iff_of_true ⟨1, by decide⟩ (by decide)
  | paddedDay => exact iff_of_true ⟨1, by decide⟩ (by decide)
  | minor => exact iff_of_true (.inl rfl) (by decide)
  | micro => exact iff_of_true (.inl rfl) (by decide)

/-- No number is below its placeholder. -/
theorem Token.Admits.least_le {t : Token} {s : List Char} (h : t.Admits s) :
    ofDigits (t.least.toList.filterMap digitValue?) ≤ ofDigits (s.filterMap digitValue?) := by
  have hnumbers : ∀ padding first last, Numbers (numeral padding) first last s →
      first ≤ ofDigits (s.filterMap digitValue?) := by
    rintro padding first last ⟨n, hlow, -, rfl⟩
    rw [ofDigits_ascii fun c hc => isDigit_of_mem_numeral hc, valueOf_numeral]
    exact hlow
  cases t with
  | fullYear => exact hnumbers false 2000 9999 h
  | shortYear => exact Nat.zero_le _
  | paddedYear => exact Nat.zero_le _
  | month => exact hnumbers false 1 12 h
  | paddedMonth => exact hnumbers true 1 12 h
  | week => exact hnumbers false 1 52 h
  | paddedWeek => exact hnumbers true 1 52 h
  | day => exact hnumbers false 1 31 h
  | paddedDay => exact hnumbers true 1 31 h
  | minor => exact Nat.zero_le _
  | micro => exact Nat.zero_le _

private theorem isModifier_placeholder : IsModifier ['A'] :=
  ⟨by decide, by simp, by simp⟩

/-- Only those modifiers come before the placeholder that begin with a hyphen. -/
private theorem lt_placeholder_iff {m : List Char} (h : IsModifier m) :
    String.ofList m < "A" ↔ m.head? = some '-' := by
  obtain ⟨hne, hall, hdigit⟩ := h
  obtain ⟨c, rest, rfl⟩ := List.exists_cons_of_ne_nil hne
  have hcode := (alphanumeric_iff c).mp (hall c List.mem_cons_self)
  have hfirst : c < 'A' ↔ c = '-' := by
    rw [Char.lt_def, UInt32.lt_iff_toNat_lt, ← Char.toNat_inj]
    show c.toNat < 65 ↔ c.toNat = 45
    have hdigit := (not_isDigit_iff c).mp (hdigit c rfl)
    omega
  rw [String.lt_iff_toList_lt, String.toList_ofList]
  show c :: rest < ['A'] ↔ _
  rw [List.cons_lt_cons_iff, List.head?_cons, Option.some.injEq, hfirst]
  simp

/-! ## The version with the placeholders -/

section
variable {L : Layout}

theorem least_text {t : Token} (ht : t ∈ L.tokens) : L.least.text t.slot = t.least.toList := by
  unfold Layout.least
  dsimp only
  cases hfound : L.tokens.find? (·.slot == t.slot) with
  | none => exact absurd (List.find?_eq_none.mp hfound t ht) (by simp)
  | some t' =>
    have hslot : t'.slot = t.slot := by simpa using List.find?_some hfound
    have hsame : t' = t :=
      List.inj_on_of_nodup_map L.nodup_slots (List.mem_of_find?_eq_some hfound) ht hslot
    rw [hsame]
    rfl

private theorem least_text_year : L.least.text .year = L.year.token.least.toList := by
  have htext := least_text (L := L) List.mem_cons_self
  rwa [YearForm.slot_token] at htext

private theorem isDigit_of_mem_least_text :
    ∀ t ∈ L.tokens, ∀ c ∈ L.least.text t.slot, isDigit c = true := by
  intro t ht c hc
  rw [least_text ht] at hc
  exact isDigit_of_mem_least hc

/-- The placeholders make a version of a format with a full year. -/
theorem spells_leastText (h : L.year = .full) : L.Spells L.least L.leastText := by
  refine ⟨fun t ht => ?_, ?_, worded_text L _ _⟩
  · have hyear : t.slot = .year → t = .fullYear := by
      intro hslot
      have hsame : t = L.year.token := by
        refine List.inj_on_of_nodup_map L.nodup_slots ht List.mem_cons_self ?_
        rw [hslot, YearForm.slot_token]
      rw [hsame, h]
      rfl
    rw [least_text ht, admits_least_iff]
    constructor
    · rintro rfl
      exact absurd (hyear rfl) (by decide)
    · rintro rfl
      exact absurd (hyear rfl) (by decide)
  · unfold Layout.least
    cases L.modifier with
    | none => rfl
    | required s => exact ⟨['A'], rfl, isModifier_placeholder⟩
    | optional s =>
      intro m hm
      cases hm
      exact isModifier_placeholder

/-- The placeholders make no version of a format with a short year. -/
theorem not_spells_leastText (h : L.year ≠ .full) : ¬∃ r, L.Spells r L.leastText := by
  rintro ⟨r, hr⟩
  have hadmits := hr.numbers _ List.mem_cons_self
  have hsame := hr.version_eq.symm.trans (worded_text L L.least _)
  have hdigits := isDigit_of_mem_least_text L.year.token List.mem_cons_self
  rw [YearForm.slot_token] at hadmits hdigits
  -- the year of the version is what stands in front, and that is nought
  obtain ⟨hyear, -⟩ := digits_append_inj hadmits.isDigit.2 hdigits
    (not_isDigit_of_mem_head _ _ _ _) (not_isDigit_of_mem_head _ _ _ _) hsame
  rw [hyear, least_text_year, admits_least_iff] at hadmits
  cases hform : L.year with
  | full => exact h hform
  | short =>
    rw [hform] at hadmits
    exact hadmits.1 rfl
  | padded =>
    rw [hform] at hadmits
    exact hadmits.2 rfl

/-- A format without a modifier has no place for one. -/
private theorem spelled_least (L : Layout) :
    L.modifier.spelled L.least.modifier = L.modifier.spelled (some ['A']) := by
  unfold Layout.least
  cases L.modifier <;> rfl

private theorem stripped_leastText (L : Layout) : stripped L.leastText = L.leastText := by
  have hseparator : ∀ s : Separator, isBlank s.char = false := by
    intro s
    cases s <;> decide
  have hend : ∀ form : ModifierForm, ∀ c ∈ form.spelled (some ['A']),
      c = 'A' ∨ ∃ s : Separator, c = s.char := by
    intro form c hc
    cases form with
    | none => cases hc
    | required s =>
      rcases List.mem_cons.mp hc with rfl | hc
      · exact .inr ⟨s, rfl⟩
      · exact .inl (List.mem_singleton.mp hc)
    | optional s =>
      rcases List.mem_cons.mp hc with rfl | hc
      · exact .inr ⟨s, rfl⟩
      · exact .inl (List.mem_singleton.mp hc)
  refine stripped_of_forall fun c hc => ?_
  rcases mem_worded hc with ⟨t, ht, hc⟩ | ⟨s, rfl⟩ | hc
  · exact isBlank_of_isDigit (isDigit_of_mem_least_text t ht c hc)
  · exact hseparator s
  · rw [spelled_least] at hc
    rcases hend _ c hc with rfl | ⟨s, rfl⟩
    · decide
    · exact hseparator s

/-- A documented format with the placeholders in it is the text that they make, with the blanks
around the format. -/
private theorem replaceInTurn_placeholders {fmt : String} {lead trail : List Char}
    (hlead : ∀ c ∈ lead, isBlank c = true) (htrail : ∀ c ∈ trail, isBlank c = true)
    (hfmt : fmt.toList = lead ++ (L.text ++ trail)) :
    CalVer.replaceInTurn CalVer.placeholders fmt.toList = lead ++ (L.leastText ++ trail) := by
  have hvalues : ∀ t ∈ L.tokens, some t.least = some (String.ofList (L.least.text t.slot)) := by
    intro t ht
    rw [least_text ht, String.ofList_toList]
  -- the modifier is put in wherever its name stands
  have hwritten := replaceInTurn_layout (r := ⟨L.least.text, some ['A']⟩)
    isDigit_of_mem_least_text (by simpa using isModifier_placeholder) hlead htrail hvalues
  have hparts : L.text ++ trail = L.worded (·.text.toList) (L.modifier.text ++ trail) := by
    rw [L.text_eq_worded, worded_append]
  unfold Layout.leastText
  rw [placeholders_eq, hfmt, hparts, spelled_least]
  exact hwritten

end

/-! ## Reading it -/

section
variable {L : Layout} {fmt : String}

private theorem exists_smallest (h : stripped fmt.toList = L.text) :
    ∃ version, stripped version.toList = L.leastText ∧
      CalVer.smallest fmt = CalVer.of fmt version := by
  obtain ⟨lead, trail, hfmt, hlead, htrail⟩ := exists_blanks fmt.toList
  rw [h] at hfmt
  refine ⟨String.ofList (CalVer.replaceInTurn CalVer.placeholders fmt.toList), ?_, ?_⟩
  · rw [String.toList_ofList, replaceInTurn_placeholders hlead htrail hfmt,
      stripped_append hlead htrail, stripped_leastText]
  · unfold CalVer.smallest
    rw [isBlankText_layout h]
    rfl

/-- The first day of a month is in the calendar. -/
private theorem dayExists_least (L : Layout) : L.DayExists L.least := by
  intro hday
  obtain ⟨t, ht, hslot⟩ := List.mem_map.mp hday
  have hone : valueOf (L.least.text .day) = 1 := by
    rw [← hslot, least_text ht]
    cases t with
    | day => rfl
    | paddedDay => rfl
    | _ => cases hslot
  rw [hone]
  unfold gregorianDays
  split
  · split <;> omega
  · split <;> omega

theorem CalVer.smallest_ok (h : stripped fmt.toList = L.text) (hyear : L.year = .full) :
    CalVer.smallest fmt = .ok (L.version fmt L.least) ∧
      ∃ version, CalVer.of fmt version = .ok (L.version fmt L.least) := by
  obtain ⟨version, hversion, hsmallest⟩ := exists_smallest h
  have hspells : L.Spells L.least (stripped version.toList) := by
    rw [hversion]
    exact spells_leastText hyear
  have hread := CalVer.of_reading h hspells (dayExists_least L)
  exact ⟨hsmallest.trans hread, version, hread⟩

theorem CalVer.smallest_error (h : stripped fmt.toList = L.text) (hyear : L.year ≠ .full) :
    ∃ version, CalVer.smallest fmt = .error (.mismatch version (String.ofList L.text)) := by
  obtain ⟨version, hversion, hsmallest⟩ := exists_smallest h
  have hnone : ¬∃ r, L.Spells r (stripped version.toList) := by
    rw [hversion]
    exact not_spells_leastText hyear
  have hblank : isBlankText version = false := by
    rw [← Bool.not_eq_true, isBlankText_iff, hversion, Layout.leastText, worded_text,
      least_text_year]
    cases L.year <;> simp [YearForm.token, Token.least]
  exact ⟨version, hsmallest.trans (CalVer.of_mismatch h hnone hblank)⟩

end

/-! ## What comes before it -/

private theorem firstDifference_nonneg {ds : List Int} (h : ∀ d ∈ ds, 0 ≤ d) :
    0 ≤ CalVer.firstDifference ds := by
  induction ds with
  | nil => exact le_refl 0
  | cons d ds ih =>
    rw [firstDifference_cons]
    split
    · exact ih fun d hd => h d (List.mem_cons_of_mem _ hd)
    · exact h d List.mem_cons_self

section
variable {L : Layout} {r : Reading} {version : List Char} {fmt : String}

/-- Where the numbers of a version differ from the placeholders, they are above them. -/
theorem gap_least_nonneg (hr : L.Spells r version) : 0 ≤ L.gap r L.least := by
  unfold Layout.gap
  refine firstDifference_nonneg ?_
  rw [List.forall_mem_map]
  intro slot _
  unfold Layout.value
  by_cases hslot : slot ∈ L.slots
  · obtain ⟨t, ht, rfl⟩ := List.mem_map.mp hslot
    have hle := (hr.numbers t ht).least_le
    rw [if_pos hslot, if_pos hslot, least_text ht]
    omega
  · rw [if_neg hslot, if_neg hslot]
    omega

private theorem convertible_least : (L.version fmt L.least).Convertible := by
  intro slot text htext
  obtain ⟨t, ht, rfl, rfl⟩ := exists_token_of_mem_slot htext
  rw [least_text ht]
  cases t <;> decide

/-- A modifier comes before the placeholder exactly if it begins with a hyphen. -/
private theorem compareModifiers_least (hr : L.Spells r version) :
    (L.version fmt r).compareModifiers (L.version fmt L.least) < 0 ↔
      ∃ m ∈ (L.version fmt r).modifier, m.toList.head? = some '-' := by
  have hmodifier : (L.version fmt r).modifier = r.modifier.map String.ofList := rfl
  cases hsome : r.modifier with
  | none =>
    rw [hsome, Option.map_none] at hmodifier
    unfold CalVer.compareModifiers
    rw [hmodifier]
    simp
  | some m =>
    rw [hsome, Option.map_some] at hmodifier
    have hleast : (L.version fmt L.least).modifier = some "A" := by
      have hform : L.modifier ≠ .none := by
        intro hnone
        have hadmits := hr.modifier
        rw [hnone, hsome] at hadmits
        cases hadmits
      show Option.map String.ofList (if L.modifier = .none then none else some ['A']) = some "A"
      rw [if_neg hform]
      rfl
    rw [compareModifiers_neg]
    unfold CalVer.modifierRank
    rw [hmodifier, hleast]
    show (String.ofList m : WithTop String) < ("A" : String) ↔ _
    rw [WithTop.coe_lt_coe, lt_placeholder_iff (hr.isModifier m hsome)]
    simp

private theorem lt_least (hr : L.Spells r version) (hleast : L.Spells L.least L.leastText)
    (h : (L.version fmt r).ShortCounters) :
    ∃ below : Bool, (L.version fmt r).lt (L.version fmt L.least) = .ok below ∧
      (below = true ↔ (L.version fmt r).SameNumbers (L.version fmt L.least) ∧
        ∃ m ∈ (L.version fmt r).modifier, m.toList.head? = some '-') := by
  have hconvertible := convertible_of_shortCounters hr h
  have hgap := gap_least_nonneg hr
  unfold CalVer.lt
  rw [compare_version hr hleast hconvertible convertible_least,
    sameNumbers_version hr hleast hconvertible convertible_least, ← compareModifiers_least hr]
  refine ⟨_, rfl, ?_⟩
  rw [decide_eq_true_eq]
  split
  · next hzero => exact (and_iff_right hzero).symm
  · next hzero => exact iff_of_false (by omega) fun hboth => hzero hboth.1

/-- What can be compared has numbers that can be converted. -/
private theorem shortCounters_of_lt (hr : L.Spells r version) {r' : Reading} {below : Bool}
    (h : (L.version fmt r).lt (L.version fmt r') = .ok below) :
    (L.version fmt r).ShortCounters := by
  have hpattern : (L.version fmt r).pattern = (L.version fmt r').pattern := rfl
  cases hcompare : (L.version fmt r).compare (L.version fmt r') with
  | error e =>
    unfold CalVer.lt at h
    rw [hcompare] at h
    cases h
  | ok result =>
    refine shortCounters_of_convertible ((convertible_iff hr).mpr fun slot => ?_)
    exact (exists_numbers_of_compare hpattern hcompare slot).1

end

/-! ## The main theorem -/

section
variable {L : Layout} {fmt : String}

/-- The smallest version of a documented format is found exactly if the year is a full one. Then it
is a version of the format, and none has lower numbers; of the versions with the same numbers those
come before it whose modifier begins with a hyphen. Versions with too long a counter cannot be
compared with it. -/
theorem CalVer.smallest_layout (h : stripped fmt.toList = L.text) :
    (L.year ≠ .full →
      ∃ version, CalVer.smallest fmt = .error (.mismatch version (String.ofList L.text))) ∧
    (L.year = .full → ∃ d, CalVer.smallest fmt = .ok d ∧
      (∃ version, CalVer.of fmt version = .ok d) ∧
      ∀ version v, CalVer.of fmt version = .ok v →
        ((∃ below, v.lt d = .ok below) ↔ v.ShortCounters) ∧
        (v.lt d = .ok true ↔ v.SameNumbers d ∧ ∃ m ∈ v.modifier, m.toList.head? = some '-')) := by
  refine ⟨CalVer.smallest_error h, fun hyear => ?_⟩
  obtain ⟨hsmallest, hversion⟩ := CalVer.smallest_ok h hyear
  refine ⟨_, hsmallest, hversion, fun version v hv => ?_⟩
  obtain ⟨r, hr, -, rfl⟩ := CalVer.exists_reading h hv
  have hleast : L.Spells L.least L.leastText := spells_leastText hyear
  constructor
  · constructor
    · rintro ⟨below, hlt⟩
      exact shortCounters_of_lt hr hlt
    · intro hshort
      obtain ⟨below, hlt, -⟩ := lt_least hr hleast hshort
      exact ⟨below, hlt⟩
  · by_cases hshort : (L.version fmt r).ShortCounters
    · obtain ⟨below, hlt, hbelow⟩ := lt_least hr hleast hshort
      rw [hlt, Except.ok.injEq, hbelow]
    · -- a number that cannot be converted is not the same as any other
      refine iff_of_false (fun hlt => hshort (shortCounters_of_lt hr hlt)) ?_
      rintro ⟨hnumbers, -⟩
      refine hshort (shortCounters_of_convertible ((convertible_iff hr).mpr fun slot => ?_))
      rw [hnumbers slot]
      exact ⟨_, number_of_convertible hleast convertible_least slot⟩

/-- A version that comes before the smallest one of its format, as its modifier is a hyphen. -/
theorem CalVer.smallest_layout_hyphen :
    stripped "YYYY.0M.MICRO[-MODIFIER]".toList =
        Layout.text ⟨.full, .month .point true, none, some .point, .optional .hyphen⟩ ∧
      ∃ d v, CalVer.smallest "YYYY.0M.MICRO[-MODIFIER]" = .ok d ∧
        CalVer.of "YYYY.0M.MICRO[-MODIFIER]" "2000.01.0--" = .ok v ∧ v.lt d = .ok true := by
  have hfmt : stripped "YYYY.0M.MICRO[-MODIFIER]".toList =
      Layout.text ⟨.full, .month .point true, none, some .point, .optional .hyphen⟩ := by
    decide
  let v : CalVer := ⟨"YYYY.0M.MICRO[-MODIFIER]", some "2000", some "01", none, none, none,
    some "0", some "-"⟩
  have hv : CalVer.of "YYYY.0M.MICRO[-MODIFIER]" "2000.01.0--" = .ok v := by decide +kernel
  obtain ⟨d, hd, -, hbelow⟩ := (CalVer.smallest_layout hfmt).2 rfl
  refine ⟨hfmt, d, v, hd, hv, (hbelow _ _ hv).2.mpr ⟨?_, "-", rfl, rfl⟩⟩
  have hsmallest : CalVer.smallest v.pattern = .ok { v with modifier := some "A" } := by
    decide +kernel
  cases hd.symm.trans hsmallest
  exact fun slot => rfl

/-- A documented format of which no smallest version is found, although it has versions. -/
theorem CalVer.smallest_shortYear :
    stripped "YY.MM".toList = Layout.text ⟨.short, .month .point false, none, none, .none⟩ ∧
      (∃ v, CalVer.of "YY.MM" "1.1" = .ok v) ∧ ¬∃ d, CalVer.smallest "YY.MM" = .ok d := by
  let v : CalVer := ⟨"YY.MM", some "1", some "1", none, none, none, none, none⟩
  have hnone : CalVer.smallest "YY.MM" = .error (.mismatch "0.1" "YY.MM") := by decide +kernel
  refine ⟨by decide, ⟨v, by decide +kernel⟩, ?_⟩
  rintro ⟨d, hd⟩
  rw [hnone] at hd
  cases hd

end

end ReleaseRunner.Version
