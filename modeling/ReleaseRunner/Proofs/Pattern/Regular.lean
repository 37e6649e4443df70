import Mathlib.Computability.Language
import ReleaseRunner.Proofs.Pattern.Language

/-!
# The languages of patterns without groups

A pattern that captures nothing has a language, and each way of putting such patterns together
goes with one of putting languages together: sequence with concatenation, alternatives with the
union, repetition with the powers and the star of a language. The main statement is
`isSome_match?_iff`: a pattern that is held to the whole of a text is matched exactly if the text
is in the language.
-/

namespace ReleaseRunner.Pattern

open Computability

/-- The pattern is plain, captures nothing, and reads exactly the texts of the language. -/
structure Recognises (p : Pattern) (l : Language Char) : Prop where
  plain : Plain p
  reads : ∀ s g, Reads p s g ↔ g = [] ∧ s ∈ l

namespace Recognises

variable {p q : Pattern} {l m : Language Char}

/-- The empty text is not read if it is not in the language. -/
theorem not_reads_nil (h : Recognises p l) (hnil : [] ∉ l) (g : Groups) : ¬Reads p [] g :=
  fun hreads => hnil ((h.reads [] g).mp hreads).2

/-- The texts of the language may be told in other words. -/
theorem congr (h : Recognises p l) (hsame : ∀ s, s ∈ l ↔ s ∈ m) : Recognises p m := by
  rw [← show l = m from Language.ext hsame]
  exact h

theorem char (set : CharSet) (caseless ascii : Bool) :
    Recognises (char set caseless ascii)
      {s | ∃ c, set.holds caseless ascii c = true ∧ s = [c]} := by
  refine ⟨trivial, fun s g => ?_⟩
  constructor
  · rintro ⟨c, hc, rfl, rfl⟩
    exact ⟨rfl, c, hc, rfl⟩
  · rintro ⟨rfl, c, hc, rfl⟩
    exact ⟨c, hc, rfl, rfl⟩

theorem literal (c : Char) : Recognises (literal c) {[c]} := by
  refine (char _ false false).congr fun s => ?_
  constructor
  · rintro ⟨d, hd, rfl⟩
    have hsame : d.toNat = c.toNat := by
      simpa [CharSet.holds, ClassItem.holds] using hd
    rw [Char.toNat_inj.mp hsame]
    rfl
  · rintro rfl
    exact ⟨c, by simp [CharSet.holds, ClassItem.holds], rfl⟩

theorem nothing : Recognises nothing 1 :=
  ⟨trivial, fun _ _ => and_comm⟩

theorem seq (hp : Recognises p l) (hq : Recognises q m) : Recognises (seq p q) (l * m) := by
  refine ⟨⟨hp.plain, hq.plain⟩, fun s g => ?_⟩
  constructor
  · rintro ⟨s₁, s₂, g₁, g₂, rfl, rfl, hfirst, hsecond⟩
    obtain ⟨rfl, hs₁⟩ := (hp.reads _ _).mp hfirst
    obtain ⟨rfl, hs₂⟩ := (hq.reads _ _).mp hsecond
    exact ⟨rfl, Language.append_mem_mul hs₁ hs₂⟩
  · rintro ⟨rfl, hs⟩
    obtain ⟨s₁, hfirst, s₂, hsecond, rfl⟩ := Language.mem_mul.mp hs
    exact ⟨s₁, s₂, [], [], rfl, rfl, (hp.reads _ _).mpr ⟨rfl, hfirst⟩,
      (hq.reads _ _).mpr ⟨rfl, hsecond⟩⟩

theorem either (hp : Recognises p l) (hq : Recognises q m) : Recognises (either p q) (l + m) := by
  refine ⟨⟨hp.plain, hq.plain⟩, fun s g => ?_⟩
  show Reads p s g ∨ Reads q s g ↔ _
  rw [hp.reads, hq.reads, ← and_or_left, Language.mem_add]

theorem times (hp : Recognises p l) (n : Nat) (s : List Char) (g : Groups) :
    times (Reads p) n s g ↔ g = [] ∧ s ∈ l ^ n := by
  induction n generalizing s g with
  | zero => exact and_comm
  | succ n ih =>
    rw [pow_succ', Language.mem_mul]
    constructor
    · rintro ⟨s₁, s₂, g₁, g₂, rfl, rfl, hfirst, hrest⟩
      obtain ⟨rfl, hs₁⟩ := (hp.reads _ _).mp hfirst
      obtain ⟨rfl, hs₂⟩ := (ih _ _).mp hrest
      exact ⟨rfl, s₁, hs₁, s₂, hs₂, rfl⟩
    · rintro ⟨rfl, s₁, hfirst, s₂, hrest, rfl⟩
      exact ⟨s₁, s₂, [], [], rfl, rfl, (hp.reads _ _).mpr ⟨rfl, hfirst⟩, (ih _ _).mpr ⟨rfl, hrest⟩⟩

/-- Repetition without a limit. -/
theorem star (hp : Recognises p l) (hnil : [] ∉ l) :
    Recognises (repeated p 0 none .greedy) l∗ := by
  refine ⟨⟨rfl, by simp, hp.plain, hp.not_reads_nil hnil⟩, fun s g => ?_⟩
  rw [Language.kstar_eq_iSup_pow, Language.mem_iSup]
  constructor
  · rintro ⟨n, -, -, hrounds⟩
    obtain ⟨rfl, hs⟩ := (hp.times n s g).mp hrounds
    exact ⟨rfl, n, hs⟩
  · rintro ⟨rfl, n, hs⟩
    exact ⟨n, Nat.zero_le n, by simp, (hp.times n s []).mpr ⟨rfl, hs⟩⟩

/-- Repetition without a limit, once at least. -/
theorem plus (hp : Recognises p l) (hnil : [] ∉ l) :
    Recognises (repeated p 1 none .greedy) (l * l∗) := by
  refine ⟨⟨rfl, by simp, hp.plain, hp.not_reads_nil hnil⟩, fun s g => ?_⟩
  rw [Language.kstar_eq_iSup_pow, Language.mul_iSup, Language.mem_iSup]
  constructor
  · rintro ⟨n, hn, -, hrounds⟩
    obtain ⟨k, rfl⟩ : ∃ k, n = k + 1 := ⟨n - 1, by omega⟩
    obtain ⟨rfl, hs⟩ := (hp.times _ s g).mp hrounds
    exact ⟨rfl, k, by rwa [← pow_succ']⟩
  · rintro ⟨rfl, k, hs⟩
    rw [← pow_succ'] at hs
    exact ⟨k + 1, Nat.le_add_left 1 k, by simp, (hp.times _ s []).mpr ⟨rfl, hs⟩⟩

/-- A part that may be missing. -/
theorem optional (hp : Recognises p l) (hnil : [] ∉ l) :
    Recognises (repeated p 0 (some 1) .greedy) (1 + l) := by
  refine ⟨⟨rfl, by simp, hp.plain, hp.not_reads_nil hnil⟩, fun s g => ?_⟩
  rw [Language.mem_add]
  constructor
  · rintro ⟨n, -, hmost, hrounds⟩
    obtain ⟨rfl, hs⟩ := (hp.times n s g).mp hrounds
    have hn : n = 0 ∨ n = 1 := by
      have := hmost 1 rfl
      omega
    rcases hn with rfl | rfl
    · exact ⟨rfl, .inl hs⟩
    · rw [pow_one] at hs
      exact ⟨rfl, .inr hs⟩
  · rintro ⟨rfl, hs | hs⟩
    · exact ⟨0, le_rfl, by simp, (hp.times 0 s []).mpr ⟨rfl, hs⟩⟩
    · exact ⟨1, Nat.zero_le 1, by simp, (hp.times 1 s []).mpr ⟨rfl, by rwa [pow_one]⟩⟩

/-- Patterns one after the other. -/
theorem sequence_cons {ps : List Pattern} (hp : Recognises p l)
    (hps : Recognises (sequence ps) m) : Recognises (sequence (p :: ps)) (l * m) := by
  cases ps with
  | nil =>
    have hone : ∀ s, s ∈ m ↔ s ∈ (1 : Language Char) := by
      intro s
      have hread : s = [] ∧ [] = [] ↔ [] = [] ∧ s ∈ m := hps.reads s []
      rw [Language.mem_one]
      exact ⟨fun hs => (hread.mpr ⟨rfl, hs⟩).1, fun hs => (hread.mp ⟨hs, rfl⟩).2⟩
    rw [Language.ext hone, mul_one]
    exact hp
  | cons q qs => exact hp.seq hps

end Recognises

private theorem plain_of_sequence {ps : List Pattern} (h : Plain (sequence ps)) :
    ∀ p ∈ ps, Plain p := by
  induction ps with
  | nil => simp
  | cons p ps ih =>
    rw [List.forall_mem_cons]
    cases ps with
    | nil => exact ⟨h, by simp⟩
    | cons q qs => exact ⟨h.1, ih h.2⟩

/-- A pattern that is held to the whole of a text is matched exactly if the text is in its
language. -/
theorem isSome_match?_iff {ps : List Pattern} {l : Language Char} {text : List Char}
    (h : Recognises (sequence ps) l) (hend : ∀ s, text ≠ s ++ ['\n']) (count : Nat) :
    ((wholeText ps).match? count text).isSome ↔ text ∈ l := by
  have hplain := plain_of_sequence h.plain
  constructor
  · intro hsome
    obtain ⟨groups, hgroups⟩ := Option.isSome_iff_exists.mp hsome
    obtain ⟨g, hreads, -⟩ := match?_sound hplain hend hgroups
    exact ((h.reads text g).mp hreads).2
  · intro htext
    exact match?_complete hplain ((h.reads text []).mpr ⟨rfl, htext⟩) count

end ReleaseRunner.Pattern
