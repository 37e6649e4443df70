import Mathlib.Data.String.Basic
import ReleaseRunner.Proofs.Version.Acceptance
import ReleaseRunner.Version.Order

/-!
# When the order is total

Two versions of a documented format are ordered by their numbers and are equal if their texts
are. A number may be written in several ways, because only the first digit of a counter has to be
an ASCII digit, and a number may be too long to be converted at all. The main statement is that
the comparisons agree exactly where neither of this happens (`CalVer.trichotomous_iff`); it does
not happen to counters in ASCII digits up to the limit (`CalVer.trichotomous_of_ascii`).
-/

namespace ReleaseRunner.Version

open Text Number

/-! ## What comparisons should say -/

/-- Exactly one of the versions comes first or they are equal, and the comparisons that are
derived agree with that. -/
def CalVer.Trichotomous (v w : CalVer) : Prop :=
  ∃ below above : Bool, v.lt w = .ok below ∧ w.lt v = .ok above ∧
    (below ∧ v ≠ w ∧ ¬above ∨ ¬below ∧ v = w ∧ ¬above ∨ ¬below ∧ v ≠ w ∧ above) ∧
    v.gt w = .ok above ∧ v.le w = .ok (!above) ∧ v.ge w = .ok (!below)

/-- The versions have the same numbers, however they are written, and the same modifier. -/
def CalVer.Level (v w : CalVer) : Prop :=
  (∀ slot, ∃ n, v.number slot = .ok n ∧ w.number slot = .ok n) ∧ v.modifier = w.modifier

/-- No number of the version is too long to be converted. -/
def CalVer.Convertible (v : CalVer) : Prop :=
  ∀ slot, ∀ text ∈ v.slot slot, text.length ≤ digitLimit

/-- All numbers of the version are in ASCII digits. -/
def CalVer.Ascii (v : CalVer) : Prop :=
  ∀ slot, ∀ text ∈ v.slot slot, ∀ c ∈ text.toList, c.isDigit = true

/-! ## Signs and differences -/

private theorem signOf_eq_zero {a b : String} : CalVer.signOf a b = 0 ↔ a = b := by
  unfold CalVer.signOf
  split
  · next h => simp [h]
  · next h => split <;> simp [h]

theorem signOf_swap (a b : String) : CalVer.signOf b a = -CalVer.signOf a b := by
  unfold CalVer.signOf
  rcases lt_trichotomy a b with h | rfl | h
  · rw [if_neg h.ne, if_pos h, if_neg h.ne', if_neg h.asymm]
    rfl
  · rw [if_pos rfl]
    rfl
  · rw [if_neg h.ne, if_pos h, if_neg h.ne', if_neg h.asymm]

theorem firstDifference_cons (d : Int) (ds : List Int) :
    CalVer.firstDifference (d :: ds) = if d = 0 then CalVer.firstDifference ds else d := by
  unfold CalVer.firstDifference
  by_cases h : d = 0
  · simp [h]
  · simp [h]

private theorem firstDifference_eq_zero {ds : List Int} :
    CalVer.firstDifference ds = 0 ↔ ∀ d ∈ ds, d = 0 := by
  induction ds with
  | nil => simp [CalVer.firstDifference]
  | cons d ds ih =>
    rw [firstDifference_cons, List.forall_mem_cons, ← ih]
    by_cases h : d = 0
    · simp [h]
    · simp [h]

private theorem firstDifference_neg (ds : List Int) :
    CalVer.firstDifference (ds.map (-·)) = -CalVer.firstDifference ds := by
  induction ds with
  | nil => rfl
  | cons d ds ih =>
    rw [List.map_cons, firstDifference_cons, firstDifference_cons, ih]
    by_cases h : d = 0
    · simp [h]
    · simp [h]

/-- The modifiers put one of two versions first, unless they are the same. -/
private theorem compareModifiers_trichotomy (v w : CalVer) :
    v.compareModifiers w < 0 ∧ v.modifier ≠ w.modifier ∧ ¬w.compareModifiers v < 0 ∨
      ¬v.compareModifiers w < 0 ∧ v.modifier = w.modifier ∧ ¬w.compareModifiers v < 0 ∨
      ¬v.compareModifiers w < 0 ∧ v.modifier ≠ w.modifier ∧ w.compareModifiers v < 0 := by
  unfold CalVer.compareModifiers
  cases v.modifier with
  | none => cases w.modifier <;> simp
  | some a =>
    cases w.modifier with
    | none => simp
    | some b =>
      have hzero := signOf_eq_zero (a := a) (b := b)
      have hswap := signOf_swap a b
      simp only [Option.some.injEq, ne_eq, ← hzero, hswap]
      omega

/-! ## Comparing the numbers -/

private theorem mapM_ok {α β ε : Type} {f : α → Except ε β} {g : α → β} {xs : List α}
    (h : ∀ x ∈ xs, f x = .ok (g x)) : xs.mapM f = .ok (xs.map g) := by
  induction xs with
  | nil => rfl
  | cons x xs ih =>
    rw [List.mapM_cons, h x List.mem_cons_self, ih fun y hy => h y (List.mem_cons_of_mem x hy)]
    rfl

private theorem exists_ok_of_mapM {α β ε : Type} {f : α → Except ε β} {xs : List α} {ys : List β}
    (h : xs.mapM f = .ok ys) : ∀ x ∈ xs, ∃ y, f x = .ok y := by
  induction xs generalizing ys with
  | nil => simp
  | cons x xs ih =>
    rw [List.mapM_cons] at h
    cases hx : f x with
    | error e =>
      rw [hx] at h
      cases h
    | ok y =>
      cases hxs : xs.mapM f with
      | error e =>
        rw [hx, hxs] at h
        cases h
      | ok ys =>
        rintro z (_ | ⟨_, hz⟩)
        · exact ⟨y, hx⟩
        · exact ih hxs z hz

section
variable {v w : CalVer}

private theorem difference_ok {slot : Slot} {a b : Int} (ha : v.number slot = .ok a)
    (hb : w.number slot = .ok b) : v.difference w slot = .ok (a - max b 0) := by
  unfold CalVer.difference
  rw [ha, hb]
  rfl

private theorem exists_numbers_of_difference {slot : Slot} {d : Int}
    (h : v.difference w slot = .ok d) :
    (∃ a, v.number slot = .ok a) ∧ ∃ b, w.number slot = .ok b := by
  unfold CalVer.difference at h
  cases ha : v.number slot with
  | error e =>
    rw [ha] at h
    cases h
  | ok a =>
    cases hb : w.number slot with
    | error e =>
      rw [ha, hb] at h
      cases h
    | ok b => exact ⟨⟨a, rfl⟩, ⟨b, rfl⟩⟩

theorem slot_cases (slot : Slot) : slot = .year ∨ slot ∈ CalVer.comparedSlots := by
  cases slot <;> decide

/-- Versions of one format are only compared if all of their numbers can be. -/
theorem exists_numbers_of_compare (hpattern : v.pattern = w.pattern) {result : Int}
    (h : v.compare w = .ok result) (slot : Slot) :
    (∃ a, v.number slot = .ok a) ∧ ∃ b, w.number slot = .ok b := by
  unfold CalVer.compare at h
  rw [if_neg (by simpa using hpattern)] at h
  cases hyear : v.difference w .year with
  | error e =>
    rw [hyear] at h
    cases h
  | ok year =>
    rw [hyear] at h
    cases hmore : CalVer.comparedSlots.mapM fun slot => do
        let d ← v.difference w slot
        return if (v.slot slot).isSome then d else 0 with
    | error e =>
      rw [hmore] at h
      cases h
    | ok differences =>
      rcases slot_cases slot with rfl | hslot
      · exact exists_numbers_of_difference hyear
      · obtain ⟨d, hd⟩ := exists_ok_of_mapM hmore slot hslot
        cases hdifference : v.difference w slot with
        | error e =>
          rw [hdifference] at hd
          cases hd
        | ok d => exact exists_numbers_of_difference hdifference

/-- The first of the numbers that differ decides, and the modifiers where none does. -/
private theorem compare_ok (hpattern : v.pattern = w.pattern) {a b : Slot → Int}
    (ha : ∀ slot, v.number slot = .ok (a slot)) (hb : ∀ slot, w.number slot = .ok (b slot))
    (hpresent : ∀ slot, (v.slot slot).isSome → 0 ≤ b slot)
    (habsent : ∀ slot, ¬(v.slot slot).isSome → a slot = b slot)
    (hyear : (v.slot .year).isSome) :
    v.compare w = .ok
      (let result := CalVer.firstDifference
        ((.year :: CalVer.comparedSlots).map fun slot => a slot - b slot)
       if result = 0 then v.compareModifiers w else result) := by
  have hgap : ∀ slot, (if (v.slot slot).isSome then a slot - max (b slot) 0 else 0) =
      a slot - b slot := by
    intro slot
    split
    · next h => rw [max_eq_left (hpresent slot h)]
    · next h =>
      rw [habsent slot h]
      omega
  have hmore : (CalVer.comparedSlots.mapM fun slot => do
      let d ← v.difference w slot
      return if (v.slot slot).isSome then d else 0) =
      .ok (CalVer.comparedSlots.map fun slot => a slot - b slot) := by
    refine mapM_ok fun slot _ => ?_
    rw [difference_ok (ha slot) (hb slot), ← hgap slot]
    rfl
  unfold CalVer.compare
  rw [if_neg (by simpa using hpattern), difference_ok (ha .year) (hb .year), hmore,
    max_eq_left (hpresent .year hyear)]
  rfl

end

/-! ## The order under a layout -/

/-- The number in a slot; a slot that the layout does not have counts as minus one. -/
def Layout.value (L : Layout) (r : Reading) (slot : Slot) : Int :=
  if slot ∈ L.slots then ofDigits ((r.text slot).filterMap digitValue?) else -1

/-- The difference of the first numbers that differ, or nought. -/
def Layout.gap (L : Layout) (r r' : Reading) : Int :=
  CalVer.firstDifference
    ((Slot.year :: CalVer.comparedSlots).map fun slot => L.value r slot - L.value r' slot)

theorem gap_swap (L : Layout) (r r' : Reading) : L.gap r' r = -L.gap r r' := by
  unfold Layout.gap
  rw [← firstDifference_neg, List.map_map]
  congr 1
  exact List.map_congr_left fun slot _ => (Int.neg_sub _ _).symm

theorem gap_eq_zero {L : Layout} {r r' : Reading} :
    L.gap r r' = 0 ↔ ∀ slot, L.value r slot = L.value r' slot := by
  unfold Layout.gap
  rw [firstDifference_eq_zero, List.forall_mem_map]
  constructor
  · intro h slot
    have hzero := h slot (List.mem_cons.mpr (slot_cases slot))
    omega
  · intro h slot _
    rw [h slot]
    omega

section
variable {L : Layout} {r r' : Reading} {version version' : List Char} {fmt : String}

private theorem isSome_slot {slot : Slot} :
    ((L.version fmt r).slot slot).isSome = true ↔ slot ∈ L.slots := by
  rw [Layout.slot_version, Layout.number?]
  split
  · next h => simp [h]
  · next h => simp [h]

/-- The numbers of a version are read, but for those that are too long. -/
private theorem number_version (hr : L.Spells r version) {slot : Slot} (hslot : slot ∈ L.slots) :
    (L.version fmt r).number slot =
      if digitLimit < (r.text slot).length then .error (.tooLongToRead (r.text slot).length)
      else .ok (L.value r slot) := by
  have hpresent : (L.version fmt r).slot slot = some (String.ofList (r.text slot)) := by
    rw [Layout.slot_version]
    exact if_pos hslot
  have hvalue : L.value r slot = ofDigits ((r.text slot).filterMap digitValue?) := if_pos hslot
  obtain ⟨t, ht, rfl⟩ := List.mem_map.mp hslot
  obtain ⟨hne, hdigits⟩ := (hr.numbers t ht).isDigit
  unfold CalVer.number
  rw [hpresent]
  dsimp only
  rw [readInteger_run hdigits hne, hvalue]

/-- All numbers are read exactly if none is too long. -/
theorem convertible_iff (hr : L.Spells r version) :
    (L.version fmt r).Convertible ↔ ∀ slot, ∃ n, (L.version fmt r).number slot = .ok n := by
  have hlength : ∀ slot ∈ L.slots, (∀ text ∈ (L.version fmt r).slot slot,
      text.length ≤ digitLimit) ↔ ¬digitLimit < (r.text slot).length := by
    intro slot hslot
    rw [Layout.slot_version, Layout.number?, if_pos hslot, Nat.not_lt]
    simp
  have habsent : ∀ slot, slot ∉ L.slots → (L.version fmt r).slot slot = none := by
    intro slot hslot
    rw [Layout.slot_version]
    exact if_neg hslot
  unfold CalVer.Convertible
  refine forall_congr' fun slot => ?_
  by_cases hslot : slot ∈ L.slots
  · rw [hlength slot hslot, number_version hr hslot]
    split
    · next h => simp [h]
    · next h => simp [h]
  · unfold CalVer.number
    rw [habsent slot hslot]
    simp

theorem number_of_convertible (hr : L.Spells r version)
    (h : (L.version fmt r).Convertible) (slot : Slot) :
    (L.version fmt r).number slot = .ok (L.value r slot) := by
  obtain ⟨n, hn⟩ := (convertible_iff hr).mp h slot
  by_cases hslot : slot ∈ L.slots
  · rw [number_version hr hslot] at hn ⊢
    split at hn
    · cases hn
    · next hshort => rw [if_neg hshort]
  · unfold CalVer.number Layout.value
    rw [Layout.slot_version, Layout.number?, if_neg hslot, if_neg hslot]

theorem compare_version (hr : L.Spells r version) (hr' : L.Spells r' version')
    (hv : (L.version fmt r).Convertible) (hw : (L.version fmt r').Convertible) :
    (L.version fmt r).compare (L.version fmt r') = .ok
      (if L.gap r r' = 0 then (L.version fmt r).compareModifiers (L.version fmt r')
       else L.gap r r') := by
  have hpattern : (L.version fmt r).pattern = (L.version fmt r').pattern := rfl
  refine compare_ok hpattern (number_of_convertible hr hv) (number_of_convertible hr' hw) ?_ ?_
    (isSome_slot.mpr (mem_slots.mpr (.inl rfl)))
  · intro slot h
    rw [Layout.value, if_pos (isSome_slot.mp h)]
    exact Int.natCast_nonneg _
  · intro slot h
    have habsent := mt isSome_slot.mpr h
    rw [Layout.value, Layout.value, if_neg habsent, if_neg habsent]

private theorem level_version (hr : L.Spells r version) (hr' : L.Spells r' version')
    (hv : (L.version fmt r).Convertible) (hw : (L.version fmt r').Convertible) :
    (L.version fmt r).Level (L.version fmt r') ↔ L.gap r r' = 0 ∧
      (L.version fmt r).modifier = (L.version fmt r').modifier := by
  have hnumber := number_of_convertible hr hv
  have hnumber' := number_of_convertible hr' hw
  unfold CalVer.Level
  rw [gap_eq_zero]
  refine and_congr_left fun _ => forall_congr' fun slot => ?_
  rw [hnumber, hnumber']
  constructor
  · rintro ⟨n, hn, hn'⟩
    exact (Except.ok.inj hn).trans (Except.ok.inj hn').symm
  · intro hsame
    exact ⟨_, rfl, by rw [hsame]⟩

/-- Of two versions that can be compared exactly one comes first, or they are level. -/
private theorem lt_version (hr : L.Spells r version) (hr' : L.Spells r' version')
    (hv : (L.version fmt r).Convertible) (hw : (L.version fmt r').Convertible) :
    ∃ below above : Bool, (L.version fmt r).lt (L.version fmt r') = .ok below ∧
      (L.version fmt r').lt (L.version fmt r) = .ok above ∧
      (below ∧ ¬(L.version fmt r).Level (L.version fmt r') ∧ ¬above ∨
        ¬below ∧ (L.version fmt r).Level (L.version fmt r') ∧ ¬above ∨
        ¬below ∧ ¬(L.version fmt r).Level (L.version fmt r') ∧ above) := by
  have hmodifiers := compareModifiers_trichotomy (L.version fmt r) (L.version fmt r')
  unfold CalVer.lt
  rw [compare_version hr hr' hv hw, compare_version hr' hr hw hv, gap_swap L r r',
    level_version hr hr' hv hw]
  refine ⟨_, _, rfl, rfl, ?_⟩
  simp only [decide_eq_true_eq]
  by_cases hzero : L.gap r r' = 0
  · simpa [hzero] using hmodifiers
  · simp only [hzero, Int.neg_eq_zero, if_false, false_and, and_false, false_or,
      not_false_eq_true, true_and]
    omega

end

/-! ## The main theorem -/

section
variable {v w : CalVer}

/-- The other comparisons follow, if exactly one version comes first or they are equal. -/
private theorem trichotomous_of_lt {below above : Bool} (hlt : v.lt w = .ok below)
    (hgt : w.lt v = .ok above)
    (h : below ∧ v ≠ w ∧ ¬above ∨ ¬below ∧ v = w ∧ ¬above ∨ ¬below ∧ v ≠ w ∧ above) :
    v.Trichotomous w := by
  have hgtValue : v.gt w = .ok (!below && decide (v ≠ w)) := by
    unfold CalVer.gt
    rw [hlt]
    rfl
  have hleValue : v.le w = .ok (below || decide (v = w)) := by
    unfold CalVer.le
    rw [hlt]
    rfl
  have hgeValue : v.ge w = .ok (!below) := by
    unfold CalVer.ge
    rw [hlt]
    rfl
  refine ⟨below, above, hlt, hgt, h, ?_, ?_, hgeValue⟩
  · rw [hgtValue]
    rcases h with ⟨hbelow, hne, habove⟩ | ⟨hbelow, heq, habove⟩ | ⟨hbelow, hne, habove⟩
    · simp [hbelow, habove]
    · simp [heq, habove]
    · simp [hbelow, hne, habove]
  · rw [hleValue]
    rcases h with ⟨hbelow, hne, habove⟩ | ⟨hbelow, heq, habove⟩ | ⟨hbelow, hne, habove⟩
    · simp [hbelow, habove]
    · simp [heq, habove]
    · simp [hbelow, hne, habove]

variable {L : Layout} {fmt version version' : String}

private theorem trichotomous_of_level (h : stripped fmt.toList = L.text)
    (hv : CalVer.of fmt version = .ok v) (hw : CalVer.of fmt version' = .ok w)
    (hconvertible : v.Convertible) (hconvertible' : w.Convertible) (hlevel : v.Level w → v = w) :
    v.Trichotomous w := by
  obtain ⟨r, hr, -, rfl⟩ := CalVer.exists_reading h hv
  obtain ⟨r', hr', -, rfl⟩ := CalVer.exists_reading h hw
  obtain ⟨below, above, hlt, hgt, hone⟩ := lt_version hr hr' hconvertible hconvertible'
  have hequal : (L.version fmt r).Level (L.version fmt r') ↔
      L.version fmt r = L.version fmt r' := by
    refine ⟨hlevel, fun hsame => ?_⟩
    rw [← hsame]
    exact ⟨fun slot => ⟨_, number_of_convertible hr hconvertible slot,
      number_of_convertible hr hconvertible slot⟩, rfl⟩
  rw [hequal] at hone
  exact trichotomous_of_lt hlt hgt hone

/-- The comparisons of two versions under a documented format agree exactly if all of their
numbers are short enough to be converted, and if they are not level without being equal. -/
theorem CalVer.trichotomous_iff (h : stripped fmt.toList = L.text)
    (hv : CalVer.of fmt version = .ok v) (hw : CalVer.of fmt version' = .ok w) :
    v.Trichotomous w ↔ v.Convertible ∧ w.Convertible ∧ (v.Level w → v = w) := by
  constructor
  · rintro ⟨below, above, hlt, hgt, hone, -⟩
    obtain ⟨r, hr, -, rfl⟩ := CalVer.exists_reading h hv
    obtain ⟨r', hr', -, rfl⟩ := CalVer.exists_reading h hw
    -- a comparison that gives an answer has converted every number
    have hnumbers : ∀ slot, (∃ a, (L.version fmt r).number slot = .ok a) ∧
        ∃ b, (L.version fmt r').number slot = .ok b := by
      have hpattern : (L.version fmt r).pattern = (L.version fmt r').pattern := rfl
      cases hcompare : (L.version fmt r).compare (L.version fmt r') with
      | error e =>
        unfold CalVer.lt at hlt
        rw [hcompare] at hlt
        cases hlt
      | ok result => exact exists_numbers_of_compare hpattern hcompare
    have hconvertible := (convertible_iff hr).mpr fun slot => (hnumbers slot).1
    have hconvertible' := (convertible_iff hr').mpr fun slot => (hnumbers slot).2
    refine ⟨hconvertible, hconvertible', fun hlevel => ?_⟩
    obtain ⟨below', above', hlt', hgt', hone'⟩ := lt_version hr hr' hconvertible hconvertible'
    cases hlt.symm.trans hlt'
    cases hgt.symm.trans hgt'
    rcases hone with ⟨hbelow, -⟩ | ⟨-, hequal, -⟩ | ⟨-, -, habove⟩
    · simp [hbelow, hlevel] at hone'
    · exact hequal
    · simp [habove, hlevel] at hone'
  · rintro ⟨hconvertible, hconvertible', hlevel⟩
    exact trichotomous_of_level h hv hw hconvertible hconvertible' hlevel

/-- A modifier comes before none, with a month that is padded. -/
theorem CalVer.trichotomous_modifier :
    stripped "YYYY.0M[-MODIFIER]".toList =
        Layout.text ⟨.full, .month .point true, none, none, .optional .hyphen⟩ ∧
      ∃ v w, CalVer.of "YYYY.0M[-MODIFIER]" "2026.01-rc" = .ok v ∧
        CalVer.of "YYYY.0M[-MODIFIER]" "2026.01" = .ok w ∧ v.Trichotomous w := by
  let v : CalVer :=
    ⟨"YYYY.0M[-MODIFIER]", some "2026", some "01", none, none, none, none, some "rc"⟩
  let w : CalVer := ⟨"YYYY.0M[-MODIFIER]", some "2026", some "01", none, none, none, none, none⟩
  have hfmt : stripped "YYYY.0M[-MODIFIER]".toList =
      Layout.text ⟨.full, .month .point true, none, none, .optional .hyphen⟩ := by
    decide
  have hv : CalVer.of "YYYY.0M[-MODIFIER]" "2026.01-rc" = .ok v := by decide +kernel
  have hw : CalVer.of "YYYY.0M[-MODIFIER]" "2026.01" = .ok w := by decide +kernel
  have hconvertible : v.Convertible ∧ w.Convertible := by
    constructor
    · intro slot text htext
      cases slot <;> cases htext <;> decide
    · intro slot text htext
      cases slot <;> cases htext <;> decide
  have hlevel : ¬v.Level w := by
    rintro ⟨-, hmodifier⟩
    cases hmodifier
  exact ⟨hfmt, v, w, hv, hw, (CalVer.trichotomous_iff hfmt hv hw).mpr
    ⟨hconvertible.1, hconvertible.2, fun h => absurd h hlevel⟩⟩

/-- A counter may have an Arabic nought. Then the versions differ, but neither comes first, and
each is above the other. -/
theorem CalVer.not_trichotomous_nought :
    stripped "YYYY.MICRO".toList = Layout.text ⟨.full, .none, none, some .point, .none⟩ ∧
      ∃ v w, CalVer.of "YYYY.MICRO" "2024.1٠" = .ok v ∧
        CalVer.of "YYYY.MICRO" "2024.10" = .ok w ∧
        v.lt w = .ok false ∧ v ≠ w ∧ w.lt v = .ok false ∧
        v.gt w = .ok true ∧ w.gt v = .ok true ∧ v.le w = .ok false := by
  let v : CalVer := ⟨"YYYY.MICRO", some "2024", none, none, none, none, some "1٠", none⟩
  let w : CalVer := ⟨"YYYY.MICRO", some "2024", none, none, none, none, some "10", none⟩
  refine ⟨by decide, v, w, ?_⟩
  decide +kernel

/-- Versions in ASCII digits are only level if they are equal. -/
theorem CalVer.eq_of_level (h : stripped fmt.toList = L.text)
    (hv : CalVer.of fmt version = .ok v) (hw : CalVer.of fmt version' = .ok w)
    (hascii : v.Ascii) (hascii' : w.Ascii) (hlevel : v.Level w) : v = w := by
  obtain ⟨r, hr, -, rfl⟩ := CalVer.exists_reading h hv
  obtain ⟨r', hr', -, rfl⟩ := CalVer.exists_reading h hw
  obtain ⟨hnumbers, hmodifier⟩ := hlevel
  have hconvertible := (convertible_iff hr).mpr fun slot => (hnumbers slot).imp fun n hn => hn.1
  have hconvertible' := (convertible_iff hr').mpr fun slot => (hnumbers slot).imp fun n hn => hn.2
  have hdigits : ∀ {r₁ : Reading}, (L.version fmt r₁).Ascii → ∀ slot ∈ L.slots,
      ∀ c ∈ r₁.text slot, c.isDigit = true := by
    intro r₁ hascii slot hslot c hc
    refine hascii slot (String.ofList (r₁.text slot)) ?_ c (by rwa [String.toList_ofList])
    rw [Layout.slot_version]
    exact if_pos hslot
  have htext : ∀ slot ∈ L.slots, r.text slot = r'.text slot := by
    intro slot hslot
    obtain ⟨n, hn, hn'⟩ := hnumbers slot
    rw [number_of_convertible hr hconvertible] at hn
    rw [number_of_convertible hr' hconvertible'] at hn'
    have hvalue : L.value r slot = L.value r' slot :=
      (Except.ok.inj hn).trans (Except.ok.inj hn').symm
    have hs := hdigits hascii slot hslot
    have hs' := hdigits hascii' slot hslot
    unfold Layout.value at hvalue
    rw [if_pos hslot, if_pos hslot, ofDigits_ascii hs, ofDigits_ascii hs'] at hvalue
    obtain ⟨t, ht, rfl⟩ := List.mem_map.mp hslot
    exact (hr.numbers t ht).eq_of_valueOf (hr'.numbers t ht) hs hs' (by omega)
  have hnumber : L.number? r = L.number? r' := by
    funext slot
    unfold Layout.number?
    split
    · next hslot => rw [htext slot hslot]
    · rfl
  have hmodifier : r.modifier.map String.ofList = r'.modifier.map String.ofList := hmodifier
  unfold Layout.version
  rw [hnumber, hmodifier]

/-- The comparisons agree for versions in ASCII digits, none of which is too long. -/
theorem CalVer.trichotomous_of_ascii (h : stripped fmt.toList = L.text)
    (hv : CalVer.of fmt version = .ok v) (hw : CalVer.of fmt version' = .ok w)
    (hascii : v.Ascii) (hascii' : w.Ascii) (hconvertible : v.Convertible)
    (hconvertible' : w.Convertible) : v.Trichotomous w :=
  trichotomous_of_level h hv hw hconvertible hconvertible' <|
    CalVer.eq_of_level h hv hw hascii hascii'

end

end ReleaseRunner.Version
