import ReleaseRunner.Number.Integer
import ReleaseRunner.Proofs.Text.Blank

/-!
# Reading whole numbers

Digits of any script, without a sign, blanks or underscores, are read as the number with their
values, as long as there are not too many of them (`readInteger_run`).
-/

namespace ReleaseRunner.Number

open ReleaseRunner.Text

/-- A run of digits goes to the end of a text that has nothing else. -/
theorem digitRun_digits {s : List Char} (h : ∀ c ∈ s, isDigit c = true) (after : Bool)
    (hne : after = true ∨ s ≠ []) : digitRun after s = some (s.filterMap digitValue?, []) := by
  induction s generalizing after with
  | nil =>
    obtain rfl : after = true := by simpa using hne
    rfl
  | cons c s ih =>
    obtain ⟨v, hv⟩ := Option.isSome_iff_exists.mp (h c List.mem_cons_self)
    have hmark : c ≠ '_' := by
      rintro rfl
      cases hv
    have hrest := ih (fun d hd => h d (List.mem_cons_of_mem _ hd)) true (.inl rfl)
    unfold digitRun
    split
    · next heq => cases heq
    · next heq => exact absurd (List.cons.inj heq).1 hmark
    · next heq =>
      obtain ⟨rfl, rfl⟩ := List.cons.inj heq
      simp [hrest, hv]

private theorem length_digits {s : List Char} (h : ∀ c ∈ s, isDigit c = true) :
    (s.filterMap digitValue?).length = s.length := by
  induction s with
  | nil => rfl
  | cons c s ih =>
    obtain ⟨v, hv⟩ := Option.isSome_iff_exists.mp (h c List.mem_cons_self)
    rw [List.filterMap_cons_some hv, List.length_cons, List.length_cons,
      ih fun d hd => h d (List.mem_cons_of_mem c hd)]

/-- Digits are read as the number with their values, unless there are too many of them. -/
theorem readInteger_run {s : List Char} (h : ∀ c ∈ s, isDigit c = true) (hne : s ≠ []) :
    readInteger (String.ofList s) =
      if digitLimit < s.length then .error (.tooLongToRead s.length)
      else .ok (ofDigits (s.filterMap digitValue?)) := by
  have hstripped : stripped (String.ofList s).toList = s := by
    rw [String.toList_ofList]
    exact stripped_of_forall fun c hc => isBlank_of_isDigit (h c hc)
  have hsign : takeSign s = (false, s) := by
    obtain ⟨c, s, rfl⟩ := List.exists_cons_of_ne_nil hne
    have hc := h c List.mem_cons_self
    unfold takeSign
    split
    · next heq =>
      obtain ⟨rfl, -⟩ := List.cons.inj heq
      cases hc
    · next heq =>
      obtain ⟨rfl, -⟩ := List.cons.inj heq
      cases hc
    · rfl
  unfold readInteger
  rw [hstripped, hsign]
  dsimp only
  rw [digitRun_digits h false (.inr hne)]
  dsimp only
  rw [length_digits h]
  rfl

theorem readInteger_digits {s : List Char} (h : ∀ c ∈ s, isDigit c = true) (hne : s ≠ [])
    (hlength : s.length ≤ digitLimit) :
    readInteger (String.ofList s) = .ok (ofDigits (s.filterMap digitValue?)) := by
  rw [readInteger_run h hne, if_neg (Nat.not_lt.mpr hlength)]

end ReleaseRunner.Number
