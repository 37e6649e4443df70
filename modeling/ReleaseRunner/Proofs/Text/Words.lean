import ReleaseRunner.Proofs.Text.Blank
import ReleaseRunner.Text.Words

/-!
# Words of a command

A command that is not blank has at least one word, if it has words at all: a character that parts
no words opens one, and a word that is open is never lost.
-/

namespace ReleaseRunner.Text

/-- What parts words is blank. -/
theorem isBlank_of_isWordGap {c : Char} (h : isWordGap c = true) : isBlank c = true := by
  unfold isWordGap at h
  simp only [Bool.or_eq_true, beq_iff_eq] at h
  obtain ((rfl | rfl) | rfl) | rfl := h <;> rfl

/-- After a gap come the words of the rest. -/
theorem wordsFrom_gap {c : Char} (hc : isWordGap c = true) (word : Option (List Char))
    (rest : List Char) {ws : List (List Char)} (h : wordsFrom .plain word (c :: rest) = .ok ws) :
    ∃ others, wordsFrom .plain none rest = .ok others ∧
      ws = word.toList.map List.reverse ++ others := by
  rw [wordsFrom, if_pos hc] at h
  cases hrest : wordsFrom .plain none rest with
  | error e =>
    rw [hrest] at h
    cases h
  | ok others =>
    rw [hrest] at h
    cases h
    exact ⟨others, rfl, rfl⟩

/-- A word that is open becomes one of the words. -/
theorem wordsFrom_ne_nil : ∀ (s : List Char) (mode : WordMode) (word : List Char)
    {ws : List (List Char)}, wordsFrom mode (some word) s = .ok ws → ws ≠ [] := by
  intro s
  -- a character closes the word only where it is a gap, and then the word is kept
  induction s with
  | nil =>
    intro mode word ws h
    cases mode with
    | plain =>
      cases h
      simp
    | within mark => cases h
    | escaped mark => cases h
  | cons c rest ih =>
    intro mode word ws h
    cases mode with
    | plain =>
      by_cases hgap : isWordGap c = true
      · obtain ⟨others, -, rfl⟩ := wordsFrom_gap hgap _ _ h
        simp
      · rw [wordsFrom, if_neg hgap] at h
        split at h
        · exact ih _ _ h
        · split at h
          · exact ih _ _ h
          · exact ih _ _ h
    | within mark =>
      rw [wordsFrom] at h
      split at h
      · exact ih _ _ h
      · split at h
        · exact ih _ _ h
        · exact ih _ _ h
    | escaped mark =>
      cases mark with
      | none =>
        rw [wordsFrom] at h
        exact ih _ _ h
      | some mark =>
        rw [wordsFrom] at h
        split at h
        · exact ih _ _ h
        · exact ih _ _ h

/-- A character that is no gap opens a word. -/
theorem wordsFrom_plain_ne_nil : ∀ {s : List Char}, (∃ c ∈ s, isWordGap c = false) →
    ∀ {ws : List (List Char)}, wordsFrom .plain none s = .ok ws → ws ≠ [] := by
  intro s
  induction s with
  | nil =>
    rintro ⟨c, hc, -⟩
    cases hc
  | cons c rest ih =>
    intro hsome ws h
    by_cases hgap : isWordGap c = true
    · obtain ⟨others, hothers, rfl⟩ := wordsFrom_gap hgap _ _ h
      have hrest : ∃ d ∈ rest, isWordGap d = false := by
        obtain ⟨d, hd, hnot⟩ := hsome
        rcases List.mem_cons.mp hd with rfl | hd
        · rw [hgap] at hnot
          cases hnot
        · exact ⟨d, hd, hnot⟩
      exact ih hrest hothers
    · rw [wordsFrom, if_neg hgap] at h
      split at h
      · exact wordsFrom_ne_nil _ _ _ h
      · split at h
        · exact wordsFrom_ne_nil _ _ _ h
        · exact wordsFrom_ne_nil _ _ _ h

/-- A command that is not blank has at least one word, if it can be split at all. -/
theorem words_ne_nil {command : String} (h : isBlankText command = false) {ws : List String}
    (hws : words command = .ok ws) : ws ≠ [] := by
  unfold words at hws
  cases hfrom : wordsFrom .plain none command.toList with
  | error e =>
    rw [hfrom] at hws
    cases hws
  | ok parts =>
    rw [hfrom] at hws
    cases hws
    have hopens : ∃ c ∈ command.toList, isWordGap c = false := by
      obtain ⟨c, hc, hblank⟩ := List.all_eq_false.mp h
      refine ⟨c, hc, ?_⟩
      cases hgap : isWordGap c with
      | false => rfl
      | true => exact absurd (isBlank_of_isWordGap hgap) hblank
    intro hnil
    exact wordsFrom_plain_ne_nil hopens hfrom (List.map_eq_nil_iff.mp hnil)

end ReleaseRunner.Text
