import Mathlib.Data.List.Lex
import Mathlib.Data.Prod.Lex
import Mathlib.Order.WithBot
import ReleaseRunner.Proofs.Version.Ordering

/-!
# Ranks of versions

A version has a rank: the text of its format, then its numbers from the year down, then its
modifier, where none comes last. The comparison of two versions is written from the one side: it
passes over the numbers and the modifier that this side lacks. The main statements are that the
order of versions is nevertheless that of their ranks (`CalVer.lt_eq_rank`), and that the
difference which `compare` gives changes its sign with the sides, unless only one of two versions
with the same numbers has a modifier (`CalVer.compare_sign`).
-/

namespace ReleaseRunner.Version

open Text Number

/-! ## The versions that are ranked -/

/-- The counters of the version are short enough to be converted. -/
def CalVer.ShortCounters (v : CalVer) : Prop :=
  ∀ slot ∈ [Slot.minor, .micro], ∀ text ∈ v.slot slot, text.length ≤ digitLimit

/-- A version that was read under a documented format, with counters that can be converted. -/
structure CalVer.Regular (v : CalVer) : Prop where
  documented : ∃ (L : Layout) (fmt version : String),
    stripped fmt.toList = L.text ∧ CalVer.of fmt version = .ok v
  short : v.ShortCounters

/-- The versions have the same numbers, and both lack the same ones. -/
def CalVer.SameNumbers (v w : CalVer) : Prop :=
  ∀ slot, v.number slot = w.number slot

/-- The numbers of a version from the year down. -/
def CalVer.numbers (v : CalVer) : List Int :=
  (Slot.year :: comparedSlots).map fun slot => (v.number slot).toOption.getD (-1)

/-- The modifier of a version; none stands above all others. -/
def CalVer.modifierRank (v : CalVer) : WithTop String :=
  v.modifier.elim ⊤ WithTop.some

/-- What decides between versions: the text of the format, then the numbers, then the modifier. -/
def CalVer.rank (v : CalVer) : String ×ₗ List Int ×ₗ WithTop String :=
  toLex (v.pattern, toLex (v.numbers, v.modifierRank))

theorem CalVer.rank_lt_iff {v w : CalVer} :
    v.rank < w.rank ↔ v.pattern < w.pattern ∨ v.pattern = w.pattern ∧
      (v.numbers < w.numbers ∨ v.numbers = w.numbers ∧ v.modifierRank < w.modifierRank) := by
  unfold CalVer.rank
  rw [Prod.Lex.toLex_lt_toLex, Prod.Lex.toLex_lt_toLex]

/-! ## Differences and ranks -/

private theorem signOf_neg {a b : String} : CalVer.signOf a b < 0 ↔ a < b := by
  unfold CalVer.signOf
  split
  · next h => simp [h]
  · split
    · next h => simp [h]
    · next h => simp [h]

/-- The first difference is below nought where the first numbers come before the second. -/
private theorem firstDifference_neg_iff (f g : Slot → Int) (slots : List Slot) :
    CalVer.firstDifference (slots.map fun slot => f slot - g slot) < 0 ↔
      slots.map f < slots.map g := by
  induction slots with
  | nil => simp [CalVer.firstDifference]
  | cons slot slots ih =>
    rw [List.map_cons, List.map_cons, List.map_cons, firstDifference_cons, List.cons_lt_cons_iff]
    by_cases hsame : f slot = g slot
    · simp [hsame, ih]
    · have hdiffer : f slot - g slot ≠ 0 := sub_ne_zero.mpr hsame
      simp [hsame, hdiffer]

/-- A modifier comes before none, and before those whose text is above its own. -/
theorem compareModifiers_neg {v w : CalVer} :
    v.compareModifiers w < 0 ↔ v.modifierRank < w.modifierRank := by
  unfold CalVer.compareModifiers CalVer.modifierRank
  cases v.modifier with
  | none => simp
  | some a =>
    cases w.modifier with
    | none => simp
    | some b => simp [signOf_neg]

/-- Only one of two modifiers can make the sides differ in what they see. -/
private theorem compareModifiers_sign (v w : CalVer) :
    (v.compareModifiers w).sign = -(w.compareModifiers v).sign ↔
      (v.modifier = none ↔ w.modifier = none) := by
  unfold CalVer.compareModifiers
  cases v.modifier with
  | none => cases w.modifier <;> simp
  | some a =>
    cases w.modifier with
    | none => simp
    | some b => simp [signOf_swap b a]

section
variable {L : Layout} {r r' : Reading} {version version' : List Char} {fmt : String}

/-- Dates are short, so that only the counters of a version may be too long. -/
theorem convertible_of_shortCounters (hr : L.Spells r version)
    (h : (L.version fmt r).ShortCounters) : (L.version fmt r).Convertible := by
  intro slot text htext
  by_cases hcounter : slot ∈ [Slot.minor, .micro]
  · exact h slot hcounter text htext
  · simp only [List.mem_cons, List.not_mem_nil, or_false, not_or] at hcounter
    obtain ⟨t, ht, rfl, rfl⟩ := exists_token_of_mem_slot htext
    obtain ⟨padding, n, hn, hnumeral⟩ :=
      (hr.numbers t ht).exists_numeral hcounter.1 hcounter.2
    rw [hnumeral, String.length_ofList]
    exact Nat.le_trans (length_numeral_le padding hn) (by decide)

theorem shortCounters_of_convertible {v : CalVer} (h : v.Convertible) : v.ShortCounters :=
  fun slot _ => h slot

private theorem numbers_version (hr : L.Spells r version)
    (hv : (L.version fmt r).Convertible) :
    (L.version fmt r).numbers = (Slot.year :: CalVer.comparedSlots).map (L.value r) := by
  unfold CalVer.numbers
  refine List.map_congr_left fun slot _ => ?_
  rw [number_of_convertible hr hv]
  rfl

/-- The gap is nought where the versions have the same numbers. -/
theorem sameNumbers_version (hr : L.Spells r version) (hr' : L.Spells r' version')
    (hv : (L.version fmt r).Convertible) (hw : (L.version fmt r').Convertible) :
    (L.version fmt r).SameNumbers (L.version fmt r') ↔ L.gap r r' = 0 := by
  unfold CalVer.SameNumbers
  rw [gap_eq_zero]
  refine forall_congr' fun slot => ?_
  rw [number_of_convertible hr hv, number_of_convertible hr' hw, Except.ok.injEq]

/-- Under one format the numbers and the modifiers decide as they do for the ranks. -/
private theorem lt_version_iff_rank (hr : L.Spells r version) (hr' : L.Spells r' version')
    (hv : (L.version fmt r).Convertible) (hw : (L.version fmt r').Convertible) :
    (L.version fmt r).lt (L.version fmt r') =
      .ok (decide ((L.version fmt r).rank < (L.version fmt r').rank)) := by
  have hgap : L.gap r r' < 0 ↔ (L.version fmt r).numbers < (L.version fmt r').numbers := by
    rw [numbers_version hr hv, numbers_version hr' hw]
    exact firstDifference_neg_iff _ _ _
  have hzero : L.gap r r' = 0 ↔ (L.version fmt r).numbers = (L.version fmt r').numbers := by
    rw [numbers_version hr hv, numbers_version hr' hw, List.map_inj_left, gap_eq_zero]
    exact ⟨fun h slot _ => h slot, fun h slot => h slot (List.mem_cons.mpr (slot_cases slot))⟩
  have hsame : (L.version fmt r).pattern = (L.version fmt r').pattern := rfl
  have hrank : (L.version fmt r).rank < (L.version fmt r').rank ↔
      (if L.gap r r' = 0 then (L.version fmt r).compareModifiers (L.version fmt r')
        else L.gap r r') < 0 := by
    rw [CalVer.rank_lt_iff, hsame, ← hgap, ← hzero, ← compareModifiers_neg]
    by_cases h : L.gap r r' = 0
    · simp [h]
    · simp [h]
  unfold CalVer.lt
  rw [compare_version hr hr' hv hw, decide_eq_decide.mpr hrank]
  rfl

end

/-- Versions come before one another as their ranks do, whatever documented formats they have. -/
theorem CalVer.lt_eq_rank {v w : CalVer} (hv : v.Regular) (hw : w.Regular) :
    v.lt w = .ok (decide (v.rank < w.rank)) := by
  obtain ⟨⟨L, fmt, version, h, hok⟩, hshort⟩ := hv
  obtain ⟨⟨L', fmt', version', h', hok'⟩, hshort'⟩ := hw
  obtain ⟨r, hr, -, rfl⟩ := CalVer.exists_reading h hok
  obtain ⟨r', hr', -, hw'⟩ := CalVer.exists_reading h' hok'
  have hpatterns : w.pattern = fmt' := by
    rw [hw']
    rfl
  by_cases hsame : fmt = fmt'
  · -- the format of the one is that of the other, and has one layout only
    subst hsame
    obtain ⟨r'', hr'', -, rfl⟩ := CalVer.exists_reading h hok'
    exact lt_version_iff_rank hr hr'' (convertible_of_shortCounters hr hshort)
      (convertible_of_shortCounters hr'' hshort')
  · have hpattern : (L.version fmt r).pattern ≠ w.pattern := by
      rw [hpatterns]
      exact hsame
    have hrank : (L.version fmt r).rank < w.rank ↔
        CalVer.signOf (L.version fmt r).pattern w.pattern < 0 := by
      rw [CalVer.rank_lt_iff, signOf_neg, or_iff_left]
      exact fun heq => hpattern heq.1
    unfold CalVer.lt CalVer.compare
    rw [if_pos hpattern, decide_eq_decide.mpr hrank]
    rfl

/-! ## The sign of a comparison -/

section
variable {L : Layout} {fmt version version' : String} {v w : CalVer}

/-- With the sides the comparison of two versions changes its sign, except where they have the
same numbers and only one of them has a modifier. There the side without one sees no difference,
and the other comes first. -/
theorem CalVer.compare_sign (h : stripped fmt.toList = L.text)
    (hv : CalVer.of fmt version = .ok v) (hw : CalVer.of fmt version' = .ok w)
    (hshort : v.ShortCounters) (hshort' : w.ShortCounters) :
    ∃ here there : Int, v.compare w = .ok here ∧ w.compare v = .ok there ∧
      (here.sign = -there.sign ↔ (v.SameNumbers w → (v.modifier = none ↔ w.modifier = none))) ∧
      (v.SameNumbers w → v.modifier = none → w.modifier ≠ none → here = 0 ∧ there = -1) := by
  obtain ⟨r, hr, -, rfl⟩ := CalVer.exists_reading h hv
  obtain ⟨r', hr', -, rfl⟩ := CalVer.exists_reading h hw
  have hconvertible := convertible_of_shortCounters hr hshort
  have hconvertible' := convertible_of_shortCounters hr' hshort'
  rw [compare_version hr hr' hconvertible hconvertible',
    compare_version hr' hr hconvertible' hconvertible, gap_swap L r r',
    sameNumbers_version hr hr' hconvertible hconvertible']
  refine ⟨_, _, rfl, rfl, ?_⟩
  by_cases hgap : L.gap r r' = 0
  · -- the modifiers decide, and one side may see them while the other does not
    have hsign := compareModifiers_sign (L.version fmt r) (L.version fmt r')
    simp only [hgap, neg_zero, if_true, true_imp_iff]
    refine ⟨hsign, fun hnone hsome => ?_⟩
    obtain ⟨m, hm⟩ := Option.ne_none_iff_exists'.mp hsome
    unfold CalVer.compareModifiers
    rw [hnone, hm]
    exact ⟨rfl, rfl⟩
  · simp only [hgap, neg_eq_zero, if_false, false_imp_iff, Int.sign_neg, neg_neg, and_self]

/-- Two modifiers are seen from both sides. -/
theorem CalVer.compare_sign_modifiers :
    stripped "YYYY.0M.MICRO[-MODIFIER]".toList =
        Layout.text ⟨.full, .month .point true, none, some .point, .optional .hyphen⟩ ∧
      ∃ v w, CalVer.of "YYYY.0M.MICRO[-MODIFIER]" "2024.03.2-beta" = .ok v ∧
        CalVer.of "YYYY.0M.MICRO[-MODIFIER]" "2024.03.2-alpha" = .ok w ∧
        ∃ here there, v.compare w = .ok here ∧ w.compare v = .ok there ∧
          here.sign = -there.sign := by
  let v : CalVer := ⟨"YYYY.0M.MICRO[-MODIFIER]", some "2024", some "03", none, none, none,
    some "2", some "beta"⟩
  let w : CalVer := ⟨"YYYY.0M.MICRO[-MODIFIER]", some "2024", some "03", none, none, none,
    some "2", some "alpha"⟩
  have hfmt : stripped "YYYY.0M.MICRO[-MODIFIER]".toList =
      Layout.text ⟨.full, .month .point true, none, some .point, .optional .hyphen⟩ := by
    decide
  have hv : CalVer.of "YYYY.0M.MICRO[-MODIFIER]" "2024.03.2-beta" = .ok v := by decide +kernel
  have hw : CalVer.of "YYYY.0M.MICRO[-MODIFIER]" "2024.03.2-alpha" = .ok w := by decide +kernel
  have hshort : v.ShortCounters ∧ w.ShortCounters := by
    constructor
    · intro slot _ text htext
      cases slot <;> cases htext <;> decide
    · intro slot _ text htext
      cases slot <;> cases htext <;> decide
  obtain ⟨here, there, hhere, hthere, hsign, -⟩ :=
    CalVer.compare_sign hfmt hv hw hshort.1 hshort.2
  have hmodifiers : v.modifier = none ↔ w.modifier = none := by decide
  exact ⟨hfmt, v, w, hv, hw, here, there, hhere, hthere, hsign.mpr fun _ => hmodifiers⟩

/-- Of a version without a modifier and one with it, only the second sees that it comes first. -/
theorem CalVer.compare_unmodified :
    stripped "YYYY[-MODIFIER]".toList =
        Layout.text ⟨.full, .none, none, none, .optional .hyphen⟩ ∧
      ∃ v w, CalVer.of "YYYY[-MODIFIER]" "2024" = .ok v ∧
        CalVer.of "YYYY[-MODIFIER]" "2024-rc1" = .ok w ∧ v.ShortCounters ∧ w.ShortCounters ∧
        ¬∃ here there, v.compare w = .ok here ∧ w.compare v = .ok there ∧
          here.sign = -there.sign := by
  let v : CalVer := ⟨"YYYY[-MODIFIER]", some "2024", none, none, none, none, none, none⟩
  let w : CalVer := ⟨"YYYY[-MODIFIER]", some "2024", none, none, none, none, none, some "rc1"⟩
  have hcompare : v.compare w = .ok 0 ∧ w.compare v = .ok (-1) := by decide +kernel
  refine ⟨by decide, v, w, by decide +kernel, by decide +kernel, ?_, ?_, ?_⟩
  · intro slot _ text htext
    cases slot <;> cases htext
    decide
  · intro slot _ text htext
    cases slot <;> cases htext
    decide
  · rintro ⟨here, there, hhere, hthere, hsign⟩
    cases hcompare.1.symm.trans hhere
    cases hcompare.2.symm.trans hthere
    exact absurd hsign (by decide)

end

end ReleaseRunner.Version
