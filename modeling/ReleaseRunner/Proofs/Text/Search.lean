import ReleaseRunner.Text.Search

/-!
# Replacing parts of a text

What `replaceAll` does to a text that is put together from parts. A text that is searched for
cannot lie across a character that it does not have, so the parts in front of such a character
and behind it are gone through apart from each other (`replaceAll_append`). Where the text does
not occur, nothing changes (`replaceAll_of_not_occursIn`).
-/

namespace ReleaseRunner.Text

variable {old new s t : List Char}

/-! ## Where a text does not occur -/

theorem mem_of_isPrefixOf (h : old.isPrefixOf s = true) {c : Char} (hc : c ∈ old) : c ∈ s :=
  (List.isPrefixOf_iff_prefix.mp h).subset hc

/-- A text does not occur where one of its characters is missing. -/
theorem not_occursIn_of_not_mem {c : Char} (hc : c ∈ old) (h : c ∉ s) :
    occursIn old s = false := by
  induction s with
  | nil =>
    cases old with
    | nil => cases hc
    | cons d old => rfl
  | cons d s ih =>
    have hstart : old.isPrefixOf (d :: s) = false := by
      rw [← Bool.not_eq_true]
      exact fun hprefix => h (mem_of_isPrefixOf hprefix hc)
    have hrest : c ∉ s := fun hmem => h (List.mem_cons_of_mem d hmem)
    unfold occursIn
    rw [hstart, ih hrest, Bool.or_false]

private theorem not_isPrefixOf_cons (hne : old ≠ []) {c : Char} (hc : c ∉ old) :
    old.isPrefixOf (c :: s) = false := by
  obtain ⟨d, rest, rfl⟩ := List.exists_cons_of_ne_nil hne
  have hdiffer : d ≠ c := by
    rintro rfl
    exact hc List.mem_cons_self
  simp [List.isPrefixOf, hdiffer]

/-- Another character in front makes no occurrence. -/
theorem not_occursIn_cons (hne : old ≠ []) {c : Char} (hc : c ∉ old)
    (h : occursIn old s = false) : occursIn old (c :: s) = false := by
  unfold occursIn
  rw [not_isPrefixOf_cons hne hc, h, Bool.or_false]

/-- A text that occurs stands somewhere between other parts. -/
theorem occursIn_iff_isInfix : occursIn old s = true ↔ old <:+: s := by
  induction s with
  | nil =>
    unfold occursIn
    rw [List.isEmpty_iff, List.infix_nil]
  | cons c s ih =>
    unfold occursIn
    rw [Bool.or_eq_true, ih, List.isPrefixOf_iff_prefix, List.infix_cons_iff]

theorem replaceAll_of_not_occursIn (h : occursIn old s = false) : replaceAll old new s = s := by
  unfold replaceAll
  induction s with
  | nil => rfl
  | cons c s ih =>
    unfold occursIn at h
    rw [Bool.or_eq_false_iff] at h
    unfold replaceAfter
    rw [if_neg (by simp [h.1]), ih h.2]

/-! ## Texts in parts -/

/-- What is passed over may be the whole text. -/
private theorem replaceAfter_of_length_le {skip : Nat} (h : s.length ≤ skip) :
    replaceAfter old new skip s = [] := by
  induction s generalizing skip with
  | nil => cases skip <;> rfl
  | cons c s ih =>
    cases skip with
    | zero => simp at h
    | succ skip => exact ih (by simpa using h)

/-- A text gives way to its replacement. -/
theorem replaceAll_self (h : old ≠ []) : replaceAll old new old = new := by
  obtain ⟨c, rest, rfl⟩ := List.exists_cons_of_ne_nil h
  unfold replaceAll replaceAfter
  have hself : (c :: rest).isPrefixOf (c :: rest) = true :=
    List.isPrefixOf_iff_prefix.mpr List.prefix_rfl
  have hskip : rest.length ≤ (c :: rest).length - 1 := by simp
  rw [if_pos hself, replaceAfter_of_length_le hskip, List.append_nil]

/-- A prefix does not reach as far as a character that it does not have. -/
private theorem isPrefixOf_append (h : ∀ c ∈ t.head?, c ∉ old) :
    old.isPrefixOf (s ++ t) = old.isPrefixOf s := by
  induction s generalizing old with
  | nil =>
    cases old with
    | nil => rfl
    | cons d old =>
      cases t with
      | nil => rfl
      | cons c t =>
        have hne : d ≠ c := by
          rintro rfl
          exact h d rfl List.mem_cons_self
        simp [List.isPrefixOf, hne]
  | cons e s ih =>
    cases old with
    | nil => rfl
    | cons d old =>
      rw [List.cons_append, List.isPrefixOf_cons_cons, List.isPrefixOf_cons_cons,
        ih fun c hc hmem => h c hc (List.mem_cons_of_mem d hmem)]

/-- A text that occurs in neither of two parts does not occur in both together. -/
theorem not_occursIn_append (h : ∀ c ∈ t.head?, c ∉ old) (hs : occursIn old s = false)
    (ht : occursIn old t = false) : occursIn old (s ++ t) = false := by
  induction s with
  | nil => exact ht
  | cons c s ih =>
    unfold occursIn at hs
    rw [Bool.or_eq_false_iff] at hs
    have hstart : old.isPrefixOf (c :: (s ++ t)) = old.isPrefixOf (c :: s) :=
      isPrefixOf_append (s := c :: s) h
    rw [List.cons_append, occursIn, hstart, hs.1, ih hs.2, Bool.or_false]

/-- Replacing goes on behind a part in the same way, if none of the text that is searched for
begins in the one part and ends in the other. -/
theorem replaceAll_append (h : ∀ c ∈ t.head?, c ∉ old) :
    replaceAll old new (s ++ t) = replaceAll old new s ++ replaceAll old new t := by
  -- while an occurrence is passed over, what is left of it lies in the first part
  have hafter : ∀ skip, skip ≤ s.length → replaceAfter old new skip (s ++ t) =
      replaceAfter old new skip s ++ replaceAfter old new 0 t := by
    induction s with
    | nil =>
      intro skip hskip
      obtain rfl : skip = 0 := by simpa using hskip
      simp [replaceAfter]
    | cons c s ih =>
      intro skip hskip
      cases skip with
      | succ skip => exact ih skip (by simpa using hskip)
      | zero =>
        have hprefix : old.isPrefixOf (c :: (s ++ t)) = old.isPrefixOf (c :: s) :=
          isPrefixOf_append (s := c :: s) h
        rw [List.cons_append, replaceAfter, replaceAfter, hprefix]
        split
        · next hstart =>
          have hlength : old.length ≤ (c :: s).length :=
            (List.isPrefixOf_iff_prefix.mp hstart).length_le
          have hskip : old.length - 1 ≤ s.length := by
            simp only [List.length_cons] at hlength
            omega
          rw [ih _ hskip, List.append_assoc]
        · rw [ih 0 (Nat.zero_le _), List.cons_append]
  exact hafter 0 (Nat.zero_le _)

/-- Characters that the text does not have stay as they are. -/
theorem replaceAll_append_left (hne : old ≠ []) (h : ∀ c ∈ s, c ∉ old) :
    replaceAll old new (s ++ t) = s ++ replaceAll old new t := by
  induction s with
  | nil => rfl
  | cons c s ih =>
    have hstart : old.isPrefixOf (c :: (s ++ t)) = false :=
      not_isPrefixOf_cons hne (h c List.mem_cons_self)
    have hrest := ih fun d hd => h d (List.mem_cons_of_mem c hd)
    unfold replaceAll at hrest ⊢
    rw [List.cons_append, replaceAfter, if_neg (by simp [hstart]), hrest, List.cons_append]

/-- A single character that gives way to nothing is left out. -/
theorem replaceAll_single (c : Char) : replaceAll [c] [] s = s.filter (· != c) := by
  unfold replaceAll
  induction s with
  | nil => rfl
  | cons d s ih =>
    rw [replaceAfter, List.filter_cons]
    by_cases h : c = d
    · subst h
      simp [List.isPrefixOf, ih]
    · simp [List.isPrefixOf, h, Ne.symm h, ih]

end ReleaseRunner.Text
