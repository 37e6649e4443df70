import ReleaseRunner.Proofs.Number.Integer
import ReleaseRunner.Proofs.Version.Grammar
import ReleaseRunner.Version.CalVer

/-!
# The versions that are accepted

Under a documented format a text is accepted exactly if it is spelled by the format, once the
blanks around it are gone, and if its day is in the calendar. What is read are the texts that it
was spelled with (`CalVer.of_layout`).

A group is only told from another by its place in the list of groups. So the groups of a reading
are put into that list first, and the version is then read off it.
-/

namespace ReleaseRunner.Version

open Pattern Text Number

/-! ## The version of a reading -/

/-- The numbers that a layout has a token for. -/
def Layout.slots (L : Layout) : List Slot := L.tokens.map Token.slot

/-- The text of a number, if the layout has a token for it. -/
def Layout.number? (L : Layout) (r : Reading) (slot : Slot) : Option String :=
  if slot ∈ L.slots then some (String.ofList (r.text slot)) else none

/-- The version with the texts of a reading. -/
def Layout.version (L : Layout) (fmt : String) (r : Reading) : CalVer where
  pattern := fmt
  year := L.number? r .year
  month := L.number? r .month
  week := L.number? r .week
  day := L.number? r .day
  minor := L.number? r .minor
  micro := L.number? r .micro
  modifier := r.modifier.map String.ofList

theorem Layout.slot_version (L : Layout) (fmt : String) (r : Reading) (slot : Slot) :
    (L.version fmt r).slot slot = L.number? r slot := by
  cases slot <;> rfl

/-- The text of a number stands in the place of a token. -/
theorem exists_token_of_mem_slot {L : Layout} {fmt : String} {r : Reading} {slot : Slot}
    {text : String} (h : text ∈ (L.version fmt r).slot slot) :
    ∃ t ∈ L.tokens, t.slot = slot ∧ text = String.ofList (r.text slot) := by
  rw [Layout.slot_version, Layout.number?] at h
  split at h
  · next hslot =>
    obtain ⟨t, ht, hslot⟩ := List.mem_map.mp hslot
    cases h
    exact ⟨t, ht, hslot, rfl⟩
  · cases h

/-- The days of a month in the Gregorian calendar. -/
def gregorianDays (year month : Nat) : Nat :=
  if month = 2 then if 4 ∣ year ∧ (¬100 ∣ year ∨ 400 ∣ year) then 29 else 28
  else if month ∈ [4, 6, 9, 11] then 30
  else 31

/-- The year that is meant: years of up to three digits count from 2000 on. -/
def YearForm.gregorian : YearForm → Nat → Nat
  | full, n => n
  | short, n => 2000 + n
  | padded, n => 2000 + n

/-- If there is a day, then the month has it. -/
def Layout.DayExists (L : Layout) (r : Reading) : Prop :=
  .day ∈ L.slots → valueOf (r.text .day) ≤
    gregorianDays (L.year.gregorian (valueOf (r.text .year))) (valueOf (r.text .month))

/-! ## The list of groups -/

theorem Groups.text?_append (g g' : Groups) (i : Nat) :
    Groups.text? (g ++ g') i = (g.text? i).or (g'.text? i) := by
  unfold Groups.text?
  rw [List.find?_append, Option.map_or]

theorem Groups.text?_eq_none {g : Groups} {i : Nat} (h : ∀ p ∈ g, p.1 ≠ i) : g.text? i = none := by
  unfold Groups.text?
  rw [Option.map_eq_none_iff, List.find?_eq_none]
  intro p hp hsame
  exact h p hp (beq_iff_eq.mp hsame)

/-- The groups of tokens are counted from the given number on. -/
private theorem range_of_mem_tokenGroups {text : Slot → List Char} {ts : List Token} {i : Nat}
    {p : Nat × List Char} (h : p ∈ tokenGroups text i ts) : i ≤ p.1 ∧ p.1 < i + ts.length := by
  induction ts generalizing i with
  | nil => cases h
  | cons t ts ih =>
    rw [List.length_cons]
    rcases List.mem_append.mp h with h | h
    · have := ih h
      omega
    · have hfirst : p = (i, text t.slot) := List.mem_singleton.mp h
      rw [hfirst]
      omega

private theorem map_text?_tokenGroups (text : Slot → List Char) (ts : List Token) (i : Nat) :
    (List.range ts.length).map (fun j => (tokenGroups text i ts).text? (i + j)) =
      ts.map fun t => some (text t.slot) := by
  induction ts generalizing i with
  | nil => rfl
  | cons t ts ih =>
    have hfirst : (tokenGroups text i (t :: ts)).text? i = some (text t.slot) := by
      have hnone : (tokenGroups text (i + 1) ts).text? i = none := by
        apply Groups.text?_eq_none
        intro p hp
        have := range_of_mem_tokenGroups hp
        omega
      unfold tokenGroups
      rw [Groups.text?_append, hnone]
      simp [Groups.text?]
    have hrest : ∀ j, (tokenGroups text i (t :: ts)).text? (i + (j + 1)) =
        (tokenGroups text (i + 1) ts).text? (i + 1 + j) := by
      intro j
      have hnext : i + (j + 1) = i + 1 + j := by omega
      have hnone : Groups.text? [(i, text t.slot)] (i + 1 + j) = none := by
        apply Groups.text?_eq_none
        intro p hp
        rw [List.mem_singleton.mp hp]
        omega
      rw [tokenGroups, hnext, Groups.text?_append, hnone, Option.or_none]
    rw [List.length_cons, List.range_succ_eq_map, List.map_cons, List.map_cons, List.map_map,
      ← ih (i + 1)]
    congr 1
    exact List.map_congr_left fun j _ => hrest j

/-- The groups of a reading, in the order in which they are counted: the texts of the tokens and
then the modifier. -/
theorem groups_layout (L : Layout) (r : Reading) :
    ((List.range (L.tokens.length + L.modifier.groups)).map fun i => (L.groups r).text? (i + 1)) =
      L.tokens.map (fun t => some (r.text t.slot)) ++
        List.replicate L.modifier.groups r.modifier := by
  have hnumbers : ∀ i ∈ List.range L.tokens.length,
      (L.groups r).text? (i + 1) = (tokenGroups r.text 1 L.tokens).text? (1 + i) := by
    intro i hi
    have hi := List.mem_range.mp hi
    -- the group of the modifier is counted after those of the tokens
    have hnone : Groups.text? (r.modifier.toList.map (L.tokens.length + 1, ·)) (i + 1) = none := by
      apply Groups.text?_eq_none
      intro p hp
      obtain ⟨m, -, rfl⟩ := List.mem_map.mp hp
      show L.tokens.length + 1 ≠ i + 1
      omega
    unfold Layout.groups
    rw [Groups.text?_append, hnone, Option.none_or, Nat.add_comm]
  have hmodifier : (L.groups r).text? (L.tokens.length + 1) = r.modifier := by
    have hnone : (tokenGroups r.text 1 L.tokens).text? (L.tokens.length + 1) = none := by
      apply Groups.text?_eq_none
      intro p hp
      have := range_of_mem_tokenGroups hp
      omega
    unfold Layout.groups
    rw [Groups.text?_append, hnone, Option.or_none]
    cases r.modifier <;> simp [Groups.text?]
  rw [List.range_add, List.map_append, List.map_congr_left hnumbers, map_text?_tokenGroups]
  congr 1
  cases L.modifier with
  | none => rfl
  | required s => simp [ModifierForm.groups, hmodifier]
  | optional s => simp [ModifierForm.groups, hmodifier]

/-- The text of a number is captured in the place of its token. -/
private theorem captured_elements (text : Slot → List Char) (es : List Element)
    (more : List (Option (List Char))) (slot : Slot) :
    CalVer.captured es (es.map (fun e => some (text e.token.slot)) ++ more) slot =
      if slot ∈ es.map (·.token.slot) then some (String.ofList (text slot)) else none := by
  unfold CalVer.captured
  induction es with
  | nil => rfl
  | cons e es ih =>
    rw [List.map_cons, List.cons_append, List.zip_cons_cons, List.find?_cons]
    by_cases h : e.token.slot = slot
    · simp [h]
    · have hother : (e.token.slot == slot) = false := beq_eq_false_iff_ne.mpr h
      rw [hother]
      dsimp only
      rw [ih]
      simp [Ne.symm h]

/-- What is read off the groups of a reading are its texts. -/
private theorem captured_layout (L : Layout) (r : Reading) (more : List (Option (List Char))) :
    CalVer.captured L.elements (L.tokens.map (fun t => some (r.text t.slot)) ++ more) =
      L.number? r := by
  funext slot
  have htexts : L.tokens.map (fun t => some (r.text t.slot)) =
      L.elements.map fun e => some (r.text e.token.slot) := by
    rw [← L.token_elements, List.map_map]
    rfl
  have hslots : L.elements.map (·.token.slot) = L.slots := by
    unfold Layout.slots
    rw [← L.token_elements, List.map_map]
    rfl
  rw [htexts, captured_elements, hslots]
  rfl

/-- The modifier is the last group behind those of the tokens. -/
private theorem modifier_layout {L : Layout} {r : Reading} (h : L.modifier.Admits r.modifier) :
    ((L.tokens.map (fun t => some (r.text t.slot)) ++
      List.replicate L.modifier.groups r.modifier).drop L.elements.length).getLast?.join =
      r.modifier := by
  have hlength : L.elements.length = (L.tokens.map fun t => some (r.text t.slot)).length := by
    rw [L.length_elements, List.length_map]
  rw [hlength, List.drop_left]
  cases hform : L.modifier with
  | none =>
    rw [hform] at h
    exact h.symm
  | required s => rfl
  | optional s => rfl

/-! ## Reading a version -/

section
variable {L : Layout} {fmt version : String}

theorem isBlankText_layout (h : stripped fmt.toList = L.text) :
    isBlankText fmt = false := by
  have htext : L.text ≠ [] := by
    unfold Layout.text
    cases L.year <;> simp [YearForm.token, Token.text]
  rw [← Bool.not_eq_true, isBlankText_iff, h]
  exact htext

/-- A documented format is read, and a version that is not blank is held against its pattern. -/
private theorem of_layout_eq (h : stripped fmt.toList = L.text)
    (hversion : isBlankText version = false) :
    CalVer.of fmt version =
      ((wholeText L.patterns).match? (L.tokens.length + L.modifier.groups)
        (stripped version.toList)).elim
        (.error (.mismatch version (String.ofList L.text)))
        fun groups => CalVer.ofParts fmt (CalVer.captured L.elements groups)
          ((groups.drop L.elements.length).getLast?.join.map String.ofList) := by
  have hread : (Format.read fmt).mapError VersionError.format =
      .ok ⟨L.text, L.elements, L.modifier.tail⟩ := by
    rw [read_layout h]
    rfl
  have hpattern : (Format.pattern ⟨L.text, L.elements, L.modifier.tail⟩).mapError
      VersionError.badPattern =
        .ok (wholeText L.patterns, L.tokens.length + L.modifier.groups) := by
    rw [pattern_layout]
    rfl
  unfold CalVer.of
  rw [isBlankText_layout h, hversion, hread]
  dsimp only [bind, Except.bind]
  rw [hpattern]
  dsimp only [bind, Except.bind]
  cases (wholeText L.patterns).match? (L.tokens.length + L.modifier.groups)
    (stripped version.toList) with
  | none => rfl
  | some groups => rfl

/-- Whatever a documented format spells is read, and what is read are the texts of its only
reading. -/
theorem CalVer.of_spelled (h : stripped fmt.toList = L.text) {r : Reading}
    (hr : L.Spells r (stripped version.toList)) :
    CalVer.of fmt version = ofParts fmt (L.number? r) (r.modifier.map String.ofList) := by
  have hversion : isBlankText version = false := by
    have hyear := (hr.numbers _ List.mem_cons_self).isDigit.1
    rw [YearForm.slot_token] at hyear
    rw [← Bool.not_eq_true, isBlankText_iff, hr.version_eq]
    simp [hyear]
  -- the pattern matches, though perhaps by another reading than the given one
  have hmatch := match?_complete (plain_layout L) (reads_layout.mpr ⟨r, hr, rfl⟩)
    (L.tokens.length + L.modifier.groups)
  obtain ⟨groups, hgroups⟩ := Option.isSome_iff_exists.mp hmatch
  have hend := stripped_ne_append (c := '\n') (by decide) version.toList
  obtain ⟨g, hreads, hlist⟩ := match?_sound (plain_layout L) hend hgroups
  obtain ⟨r', hr', rfl⟩ := reads_layout.mp hreads
  rw [hr'.groups_eq hr, groups_layout] at hlist
  rw [of_layout_eq h hversion, hgroups, hlist]
  dsimp only [Option.elim]
  rw [captured_layout, modifier_layout hr.modifier]

/-- A text that is not spelled by the format does not match it, unless it is blank. -/
theorem CalVer.of_mismatch (h : stripped fmt.toList = L.text)
    (hnone : ¬∃ r, L.Spells r (stripped version.toList)) (hversion : isBlankText version = false) :
    CalVer.of fmt version = .error (.mismatch version (String.ofList L.text)) := by
  rw [of_layout_eq h hversion]
  cases hmatch : (wholeText L.patterns).match? (L.tokens.length + L.modifier.groups)
    (stripped version.toList) with
  | none => rfl
  | some groups =>
    have hend := stripped_ne_append (c := '\n') (by decide) version.toList
    obtain ⟨g, hreads, -⟩ := match?_sound (plain_layout L) hend hmatch
    obtain ⟨r, hr, -⟩ := reads_layout.mp hreads
    exact absurd ⟨r, hr⟩ hnone

/-- A text that is not spelled by the format is refused. -/
theorem CalVer.of_not_spelled (h : stripped fmt.toList = L.text)
    (hnone : ¬∃ r, L.Spells r (stripped version.toList)) :
    CalVer.of fmt version = .error .blankVersion ∨
      CalVer.of fmt version = .error (.mismatch version (String.ofList L.text)) := by
  by_cases hversion : isBlankText version = true
  · left
    unfold CalVer.of
    rw [isBlankText_layout h, hversion]
    rfl
  · exact .inr (CalVer.of_mismatch h hnone (by simpa using hversion))

end

/-! ## Cleaning -/

private theorem cleaned_text {s : List Char} (hne : s ≠ []) (h : ∀ c ∈ s, isBlank c = false) :
    CalVer.cleaned (some (String.ofList s)) = some (String.ofList s) := by
  have hstripped : stripped (String.ofList s).toList = s := by
    rw [String.toList_ofList]
    exact stripped_of_forall h
  have hblank : isBlankText (String.ofList s) = false := by
    rw [← Bool.not_eq_true, isBlankText_iff, hstripped]
    exact hne
  unfold CalVer.cleaned strip
  dsimp only
  rw [hblank, hstripped]
  rfl

section
variable {L : Layout} {r : Reading} {version : List Char}

private theorem cleaned_number (hr : L.Spells r version) (slot : Slot) :
    CalVer.cleaned (L.number? r slot) = L.number? r slot := by
  unfold Layout.number?
  by_cases hslot : slot ∈ L.slots
  · obtain ⟨t, ht, rfl⟩ := List.mem_map.mp hslot
    obtain ⟨hne, hdigits⟩ := (hr.numbers t ht).isDigit
    rw [if_pos hslot]
    exact cleaned_text hne fun c hc => isBlank_of_isDigit (hdigits c hc)
  · rw [if_neg hslot]
    rfl

/-- What is captured as a modifier may stand as one. -/
theorem Layout.Spells.isModifier (hr : L.Spells r version) : ∀ s ∈ r.modifier, IsModifier s := by
  have h := hr.modifier
  intro s hs
  cases hform : L.modifier with
  | none =>
    rw [hform] at h
    rw [show r.modifier = none from h] at hs
    cases hs
  | required sep =>
    rw [hform] at h
    obtain ⟨m, hm, hmodifier⟩ := h
    rw [hm] at hs
    cases hs
    exact hmodifier
  | optional sep =>
    rw [hform] at h
    exact h s hs

private theorem cleaned_modifier (hr : L.Spells r version) :
    CalVer.cleaned (r.modifier.map String.ofList) = r.modifier.map String.ofList := by
  cases hmodifier : r.modifier with
  | none => rfl
  | some s =>
    obtain ⟨hne, hall, -⟩ := hr.isModifier s hmodifier
    refine cleaned_text hne fun c hc => ?_
    have hcode := (alphanumeric_iff c).mp (hall c hc)
    simp [isBlank]
    omega

/-- A reading is made into its version, if the date is good. -/
private theorem ofParts_layout (hr : L.Spells r version) (fmt : String) :
    CalVer.ofParts fmt (L.number? r) (r.modifier.map String.ofList) =
      (L.version fmt r).checkDate.map fun _ => L.version fmt r := by
  unfold CalVer.ofParts
  simp only [cleaned_number hr, cleaned_modifier hr]
  show ((L.version fmt r).checkDate >>= fun _ => pure (L.version fmt r)) = _
  cases (L.version fmt r).checkDate <;> rfl

end

/-! ## The calendar -/

/-- ASCII digits have the values that they write. -/
theorem ofDigits_ascii {s : List Char} (h : ∀ c ∈ s, c.isDigit = true) :
    ofDigits (s.filterMap digitValue?) = valueOf s := by
  have hfold : ∀ n, (s.filterMap digitValue?).foldl (fun n d => 10 * n + d) n =
      Nat.ofDigitChars 10 s n := by
    induction s with
    | nil => exact fun n => rfl
    | cons c s ih =>
      intro n
      rw [Nat.ofDigitChars_cons, ← ih fun d hd => h d (List.mem_cons_of_mem _ hd)]
      simp [digitValue?_of_ascii (h c List.mem_cons_self)]
  exact hfold 0

theorem readInteger_numeral (padding : Bool) {n : Nat} (h : n < 10000) :
    readInteger (String.ofList (numeral padding n)) = .ok (n : Int) := by
  have hdigits : ∀ c ∈ numeral padding n, isDigit c = true := fun c hc =>
    isDigit_of_ascii (isDigit_of_mem_numeral hc)
  have hlength : (numeral padding n).length ≤ digitLimit :=
    Nat.le_trans (length_numeral_le padding h) (by decide)
  rw [readInteger_digits hdigits (numeral_ne_nil padding n) hlength,
    ofDigits_ascii fun c hc => isDigit_of_mem_numeral hc, valueOf_numeral]

/-- The calendar goes round after four hundred years. -/
private theorem isLeapYear_iff (form : YearForm) (year : Nat) :
    isLeapYear (year : Int) = true ↔ 4 ∣ form.gregorian year ∧
      (¬100 ∣ form.gregorian year ∨ 400 ∣ form.gregorian year) := by
  unfold isLeapYear
  simp only [Bool.and_eq_true, Bool.or_eq_true, beq_iff_eq, bne_iff_ne]
  cases form with
  | full =>
    show _ ↔ 4 ∣ year ∧ (¬100 ∣ year ∨ 400 ∣ year)
    omega
  | short =>
    show _ ↔ 4 ∣ 2000 + year ∧ (¬100 ∣ 2000 + year ∨ 400 ∣ 2000 + year)
    omega
  | padded =>
    show _ ↔ 4 ∣ 2000 + year ∧ (¬100 ∣ 2000 + year ∨ 400 ∣ 2000 + year)
    omega

/-- A short year has the months of the year that is meant. -/
theorem daysInMonth?_gregorian (form : YearForm) (year : Nat) {month : Nat} (hlow : 1 ≤ month)
    (hhigh : month ≤ 12) :
    daysInMonth? (year : Int) (month : Int) = some (gregorianDays (form.gregorian year) month) := by
  have hleap := isLeapYear_iff form year
  unfold daysInMonth? gregorianDays
  by_cases hfebruary : month = 2
  · subst hfebruary
    by_cases hyear : isLeapYear (year : Int) = true
    · simp [hyear, hleap.mp hyear]
    · have hcommon := mt hleap.mpr hyear
      simp [hyear, hcommon]
  · interval_cases month
    case «2» => exact absurd rfl hfebruary
    all_goals rfl

section
variable {L : Layout} {r : Reading} {version : List Char}

/-- The numbers of a date are read. -/
private theorem number_layout (hr : L.Spells r version) (fmt : String) {slot : Slot}
    (hslot : slot ∈ L.slots) (hminor : slot ≠ .minor) (hmicro : slot ≠ .micro) :
    (L.version fmt r).number slot = .ok (valueOf (r.text slot) : Int) := by
  obtain ⟨t, ht, rfl⟩ := List.mem_map.mp hslot
  obtain ⟨padding, n, hn, htext⟩ := (hr.numbers t ht).exists_numeral hminor hmicro
  have hnumber : (L.version fmt r).slot t.slot = some (String.ofList (r.text t.slot)) := by
    rw [Layout.slot_version]
    exact if_pos hslot
  unfold CalVer.number
  rw [hnumber]
  dsimp only
  rw [htext, readInteger_numeral padding hn, valueOf_numeral]

theorem mem_slots {slot : Slot} : slot ∈ L.slots ↔
    slot = .year ∨ slot ∈ L.date.fields.map (·.2.slot) ∨ slot ∈ L.counters.map (·.2.slot) := by
  unfold Layout.slots Layout.tokens Layout.fields
  rw [List.map_cons, YearForm.slot_token, List.map_append, List.map_append, List.map_map,
    List.map_map, List.mem_cons, List.mem_append]
  rfl

/-- A day comes behind a month. -/
private theorem month_mem_slots (h : .day ∈ L.slots) : .month ∈ L.slots := by
  have hdate : Slot.day ∈ L.date.fields.map (·.2.slot) := by
    rcases mem_slots.mp h with h | h | h
    · cases h
    · exact h
    · obtain ⟨f, hf, hslot⟩ := List.mem_map.mp h
      exact absurd hslot (slot_ne_of_mem_counters L (by decide) f hf)
  apply mem_slots.mpr
  right
  left
  cases hform : L.date with
  | none =>
    rw [hform] at hdate
    cases hdate
  | month s padded => cases padded <;> exact List.mem_cons_self
  | monthAndDay s padded s' padded' => cases padded <;> exact List.mem_cons_self
  | week s padded =>
    rw [hform] at hdate
    cases padded <;> simp [DateForm.fields, Token.slot] at hdate

/-- The date of a version is good if the day exists. -/
private theorem checkDate_layout (hr : L.Spells r version) (fmt : String) :
    (L.version fmt r).checkDate = .ok () ↔ L.DayExists r := by
  have hyear : .year ∈ L.slots := mem_slots.mpr (.inl rfl)
  unfold Layout.DayExists
  by_cases hday : .day ∈ L.slots
  · have hmonth := month_mem_slots hday
    obtain ⟨t, ht, hslot⟩ := List.mem_map.mp hmonth
    have hrange := (hr.numbers t ht).month_range hslot
    rw [hslot] at hrange
    -- the month is one of the twelve, so that it has days at all
    have hdays := daysInMonth?_gregorian L.year (valueOf (r.text .year)) hrange.1 hrange.2
    have hpresent : ∀ slot ∈ L.slots, L.number? r slot = some (String.ofList (r.text slot)) :=
      fun slot hslot => if_pos hslot
    have hyearText : (L.version fmt r).year = _ := hpresent .year hyear
    have hmonthText : (L.version fmt r).month = _ := hpresent .month hmonth
    have hdayText : (L.version fmt r).day = _ := hpresent .day hday
    unfold CalVer.checkDate
    rw [hyearText, hmonthText, hdayText]
    dsimp only
    rw [number_layout hr fmt hyear (by decide) (by decide),
      number_layout hr fmt hmonth (by decide) (by decide),
      number_layout hr fmt hday (by decide) (by decide)]
    dsimp only [Except.mapError, bind, Except.bind]
    rw [hdays]
    dsimp only
    by_cases hle : valueOf (r.text .day) ≤
        gregorianDays (L.year.gregorian (valueOf (r.text .year))) (valueOf (r.text .month))
    · rw [if_neg (by omega)]
      exact ⟨fun _ _ => hle, fun _ => rfl⟩
    · rw [if_pos (by omega)]
      constructor
      · intro h
        cases h
      · intro h
        exact absurd (h hday) hle
  · -- without a day there is nothing to check
    have habsent : (L.version fmt r).day = none := if_neg hday
    have hgood : (L.version fmt r).checkDate = .ok () := by
      unfold CalVer.checkDate
      split
      · next hsome =>
        rw [habsent] at hsome
        cases hsome
      · rfl
    exact ⟨fun _ h => absurd h hday, fun _ => hgood⟩

end

/-! ## The main theorem -/

section
variable {L : Layout} {fmt version : String} {v : CalVer}

private theorem of_checkDate (h : stripped fmt.toList = L.text) {r : Reading}
    (hr : L.Spells r (stripped version.toList)) :
    CalVer.of fmt version = (L.version fmt r).checkDate.map fun _ => L.version fmt r := by
  rw [CalVer.of_spelled h hr, ofParts_layout hr]

/-- A text that the format spells is read, if the day exists. -/
theorem CalVer.of_reading (h : stripped fmt.toList = L.text) {r : Reading}
    (hr : L.Spells r (stripped version.toList)) (hday : L.DayExists r) :
    CalVer.of fmt version = .ok (L.version fmt r) := by
  rw [of_checkDate h hr, (checkDate_layout hr fmt).mpr hday]
  rfl

/-- A version that was read has the texts which the format spells it with. -/
theorem CalVer.exists_reading (h : stripped fmt.toList = L.text)
    (hok : CalVer.of fmt version = .ok v) :
    ∃ r, L.Spells r (stripped version.toList) ∧ L.DayExists r ∧ v = L.version fmt r := by
  by_cases hspelled : ∃ r, L.Spells r (stripped version.toList)
  · obtain ⟨r, hr⟩ := hspelled
    rw [of_checkDate h hr] at hok
    cases hdate : (L.version fmt r).checkDate with
    | error e =>
      rw [hdate] at hok
      cases hok
    | ok u =>
      rw [hdate] at hok
      cases hok
      exact ⟨r, hr, (checkDate_layout hr fmt).mp hdate, rfl⟩
  · -- neither way of refusing it is accepting it
    rcases CalVer.of_not_spelled h hspelled with hrefused | hrefused
    · rw [hrefused] at hok
      cases hok
    · rw [hrefused] at hok
      cases hok

end

/-- Under a documented format exactly those texts are accepted which the format spells, once the
blanks around them are gone, with a day that exists. The version that is read has the texts it was
spelled with. -/
theorem CalVer.of_layout {L : Layout} {fmt : String} (h : stripped fmt.toList = L.text)
    (version : String) (v : CalVer) :
    CalVer.of fmt version = .ok v ↔
      ∃ r, L.Spells r (stripped version.toList) ∧ L.DayExists r ∧ v = L.version fmt r := by
  constructor
  · intro hok
    exact CalVer.exists_reading h hok
  · rintro ⟨r, hr, hday, rfl⟩
    exact CalVer.of_reading h hr hday

/-- The twenty-ninth of February is a day of a short leap year, between blanks and with a
modifier. -/
theorem CalVer.of_leapDay :
    stripped " YY.0M.0D[-MODIFIER]".toList =
        Layout.text ⟨.short, .monthAndDay .point true .point true, none, none,
          .optional .hyphen⟩ ∧
      ∃ v, CalVer.of " YY.0M.0D[-MODIFIER]" "24.02.29-rc-1\n" = .ok v ∧
        v.day = some "29" ∧ v.modifier = some "rc-1" := by
  have h : stripped " YY.0M.0D[-MODIFIER]".toList =
      Layout.text ⟨.short, .monthAndDay .point true .point true, none, none,
        .optional .hyphen⟩ := by
    decide
  let r : Reading := {
    text := fun slot =>
      if slot = .year then "24".toList else if slot = .month then "02".toList else "29".toList
    modifier := some ['r', 'c', '-', '1'] }
  have hspelled : Layout.Spells
      ⟨.short, .monthAndDay .point true .point true, none, none, .optional .hyphen⟩ r
      (stripped "24.02.29-rc-1\n".toList) := by
    refine ⟨?_, ?_, by decide⟩
    · have hnumbers : Numbers decimal 1 999 "24".toList ∧ Numbers padded 1 12 "02".toList ∧
          Numbers padded 1 31 "29".toList :=
        ⟨⟨24, by decide⟩, ⟨2, by decide⟩, ⟨29, by decide⟩⟩
      intro t ht
      simp only [Layout.tokens, YearForm.token, Layout.fields, DateForm.fields, Layout.counters,
        Option.toList_none, List.map_nil, List.append_nil, List.map_cons, List.mem_cons,
        List.not_mem_nil, or_false, if_true] at ht
      rcases ht with rfl | rfl | rfl
      · exact hnumbers.1
      · exact hnumbers.2.1
      · exact hnumbers.2.2
    · intro s hs
      cases hs
      refine ⟨by decide, by simp, ?_⟩
      intro c hc
      cases hc
      rfl
  refine ⟨h, _, (of_layout h _ _).mpr ⟨r, hspelled, ?_, rfl⟩, by decide, by decide⟩
  exact fun _ => by decide

end ReleaseRunner.Version
