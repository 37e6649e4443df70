import Mathlib.Data.List.TakeWhile
import ReleaseRunner.Text.Blank
import ReleaseRunner.Text.Digit

/-!
# Texts without blanks around them

Removing the blanks at the two ends of a text leaves nothing exactly where there were only
blanks, leaves no blank at the end, and changes nothing where there are no blanks at all. What
blanks there are around a text makes no difference. No digit of any script is a blank.
-/

namespace ReleaseRunner.Text

theorem dropBlankEnd_cons (c : Char) (s : List Char) :
    dropBlankEnd (c :: s) =
      if (dropBlankEnd s).isEmpty && isBlank c then [] else c :: dropBlankEnd s := rfl

/-- No blank is left at the end. -/
theorem isBlank_of_dropBlankEnd {s front : List Char} {c : Char}
    (h : dropBlankEnd s = front ++ [c]) : isBlank c = false := by
  induction s generalizing front with
  | nil =>
    have hlength := congrArg List.length h
    simp [dropBlankEnd] at hlength
  | cons d s ih =>
    rw [dropBlankEnd_cons] at h
    split at h
    · simp at h
    · next hkept =>
      cases front with
      | cons e front => exact ih (List.cons.inj h).2
      | nil =>
        obtain ⟨rfl, hnil⟩ := List.cons.inj h
        rw [hnil, List.isEmpty_nil, Bool.true_and] at hkept
        simpa using hkept

/-- A text without blanks around it does not end with one. -/
theorem stripped_ne_append {c : Char} (hc : isBlank c = true) (s front : List Char) :
    stripped s ≠ front ++ [c] := by
  intro h
  have hnot := isBlank_of_dropBlankEnd h
  rw [hc] at hnot
  cases hnot

theorem dropBlankEnd_eq_nil {s : List Char} : dropBlankEnd s = [] ↔ ∀ c ∈ s, isBlank c = true := by
  induction s with
  | nil => simp [dropBlankEnd]
  | cons c s ih =>
    rw [dropBlankEnd_cons, List.forall_mem_cons, ← ih]
    by_cases h : dropBlankEnd s = []
    · simp [h]
    · simp [h]

/-- Nothing is left of blanks, and something of any other text. -/
theorem stripped_eq_nil {s : List Char} : stripped s = [] ↔ ∀ c ∈ s, isBlank c = true := by
  unfold stripped
  rw [dropBlankEnd_eq_nil]
  induction s with
  | nil => simp
  | cons c s ih =>
    rw [List.dropWhile_cons]
    by_cases h : isBlank c = true
    · rw [if_pos h, ih, List.forall_mem_cons, and_iff_right h]
    · rw [if_neg h]

theorem isBlankText_iff {s : String} : isBlankText s = true ↔ stripped s.toList = [] := by
  rw [stripped_eq_nil]
  exact List.all_eq_true

/-- A text without any blanks stays as it is. -/
theorem stripped_of_forall {s : List Char} (h : ∀ c ∈ s, isBlank c = false) : stripped s = s := by
  have hfront : s.dropWhile isBlank = s := by
    cases s with
    | nil => rfl
    | cons c s => simp [h c List.mem_cons_self]
  unfold stripped
  rw [hfront]
  clear hfront
  induction s with
  | nil => rfl
  | cons c s ih =>
    rw [dropBlankEnd_cons, h c List.mem_cons_self, Bool.and_false, if_neg Bool.false_ne_true,
      ih fun d hd => h d (List.mem_cons_of_mem _ hd)]

/-- Blanks behind a text come off with those at its end. -/
private theorem dropBlankEnd_append {s trail : List Char} (h : ∀ c ∈ trail, isBlank c = true) :
    dropBlankEnd (s ++ trail) = dropBlankEnd s := by
  induction s with
  | nil => exact dropBlankEnd_eq_nil.mpr h
  | cons c s ih => rw [List.cons_append, dropBlankEnd_cons, dropBlankEnd_cons, ih]

/-- Blanks around a text make no difference. -/
theorem stripped_append {lead s trail : List Char} (hlead : ∀ c ∈ lead, isBlank c = true)
    (htrail : ∀ c ∈ trail, isBlank c = true) : stripped (lead ++ (s ++ trail)) = stripped s := by
  unfold stripped
  rw [List.dropWhile_append_of_pos hlead, List.dropWhile_append]
  split
  · next hempty =>
    -- the text itself is blank, so that all of it comes off at the front
    have hnone : trail.dropWhile isBlank = [] := List.dropWhile_eq_nil_iff.mpr htrail
    rw [hnone, List.isEmpty_iff.mp hempty]
  · exact dropBlankEnd_append htrail

private theorem exists_dropBlankEnd (s : List Char) :
    ∃ trail, s = dropBlankEnd s ++ trail ∧ ∀ c ∈ trail, isBlank c = true := by
  induction s with
  | nil => exact ⟨[], rfl, by simp⟩
  | cons c s ih =>
    rw [dropBlankEnd_cons]
    split
    · next h =>
      rw [Bool.and_eq_true, List.isEmpty_iff] at h
      exact ⟨c :: s, rfl, List.forall_mem_cons.mpr ⟨h.2, dropBlankEnd_eq_nil.mp h.1⟩⟩
    · obtain ⟨trail, hsame, hblank⟩ := ih
      exact ⟨trail, by rw [List.cons_append, ← hsame], hblank⟩

/-- A text is what is left of it between blanks. -/
theorem exists_blanks (s : List Char) : ∃ lead trail, s = lead ++ (stripped s ++ trail) ∧
    (∀ c ∈ lead, isBlank c = true) ∧ ∀ c ∈ trail, isBlank c = true := by
  obtain ⟨trail, hsame, hblank⟩ := exists_dropBlankEnd (s.dropWhile isBlank)
  refine ⟨s.takeWhile isBlank, trail, ?_, fun c hc => List.mem_takeWhile_imp hc, hblank⟩
  unfold stripped
  rw [← hsame, List.takeWhile_append_dropWhile]

/-- Blanks come off at once. -/
theorem stripped_stripped (s : List Char) : stripped (stripped s) = stripped s := by
  obtain ⟨lead, trail, hsame, hlead, htrail⟩ := exists_blanks s
  have h := stripped_append (s := stripped s) hlead htrail
  rw [← hsame] at h
  exact h.symm

/-- The rows of digits stand between the blanks. -/
theorem isBlank_of_isDigit {c : Char} (h : isDigit c = true) : isBlank c = false := by
  obtain ⟨v, hv⟩ := Option.isSome_iff_exists.mp h
  unfold digitValue? at hv
  obtain ⟨z, hz, -⟩ := Option.map_eq_some_iff.mp hv
  have hrange := List.find?_some hz
  have hmem := List.mem_of_find?_eq_some hz
  have hrows : ∀ z ∈ noughts, z = 0x30 ∨ 0x3000 < z ∨
      0x660 ≤ z ∧ (z + 9 < 0x1680 ∨ 0x1680 < z ∧ z + 9 < 0x2000) := by decide
  have hrow := hrows z hmem
  simp only [Bool.and_eq_true, decide_eq_true_eq] at hrange
  simp [isBlank]
  omega

end ReleaseRunner.Text
