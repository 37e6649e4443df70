import ReleaseRunner.Proofs.Text.Search
import ReleaseRunner.Proofs.Version.Acceptance

/-!
# The text of a version

A version is written by replacing the tokens of its format one kind after the other, all over
the text, so that texts which were put in earlier are searched through as well. The main
statement is that what is written is nevertheless the text that was read, and that reading it
again gives the same version (`CalVer.of_text`).

The format is taken as a text with a word for each token (`Layout.worded`). At first the words
are the tokens, and each replacement turns some of them into numbers. No token is hidden in a
number, and none in a token whose turn comes later.
-/

namespace ReleaseRunner.Version

open Text

/-! ## Words in the places of tokens -/

/-- The text of a layout with a word in the place of each token, and what ends it. -/
def Layout.worded (L : Layout) (word : Token → List Char) (ending : List Char) : List Char :=
  word L.year.token ++ (L.fields.flatMap (fun f => f.1.char :: word f.2) ++ ending)

section
variable {L : Layout} {r : Reading} {word word' : Token → List Char} {ending : List Char}

theorem Layout.text_eq_worded (L : Layout) :
    L.text = L.worded (·.text.toList) L.modifier.text := by
  have hfields : ∀ fs : List Field, fieldsText L.modifier fs =
      fs.flatMap (fun f => f.1.char :: f.2.text.toList) ++ L.modifier.text := by
    intro fs
    induction fs with
    | nil => rfl
    | cons f fs ih =>
      rw [fieldsText, ih]
      simp
  unfold Layout.text Layout.worded
  rw [hfields]

theorem worded_text (L : Layout) (r : Reading) (ending : List Char) :
    L.worded (fun t => r.text t.slot) ending =
      r.text .year ++ (spelled r.text L.fields ++ ending) := by
  unfold Layout.worded
  dsimp only
  rw [YearForm.slot_token]
  rfl

/-- What is spelled are the numbers in the places of the tokens. -/
theorem Layout.Spells.eq_worded {version : List Char} (h : L.Spells r version) :
    version = L.worded (fun t => r.text t.slot) (L.modifier.spelled r.modifier) :=
  h.version_eq.trans (worded_text L r _).symm

theorem worded_append (tail : List Char) :
    L.worded word ending ++ tail = L.worded word (ending ++ tail) := by
  simp [Layout.worded]

theorem worded_congr (h : ∀ t ∈ L.tokens, word t = word' t) :
    L.worded word ending = L.worded word' ending := by
  have hfields : L.fields.flatMap (fun f => f.1.char :: word f.2) =
      L.fields.flatMap (fun f => f.1.char :: word' f.2) := by
    refine List.flatMap_congr fun f hf => ?_
    rw [h f.2 (List.mem_cons_of_mem _ (List.mem_map_of_mem hf))]
  unfold Layout.worded
  rw [h _ List.mem_cons_self, hfields]

/-- Every character is in one of the words, or a separator, or at the end. -/
theorem mem_worded {c : Char} (h : c ∈ L.worded word ending) :
    (∃ t ∈ L.tokens, c ∈ word t) ∨ (∃ s : Separator, c = s.char) ∨ c ∈ ending := by
  rcases List.mem_append.mp h with h | h
  · exact .inl ⟨_, List.mem_cons_self, h⟩
  · rcases List.mem_append.mp h with h | h
    · obtain ⟨f, hf, hc⟩ := List.mem_flatMap.mp h
      rcases List.mem_cons.mp hc with rfl | hc
      · exact .inr (.inl ⟨f.1, rfl⟩)
      · exact .inl ⟨f.2, List.mem_cons_of_mem _ (List.mem_map_of_mem hf), hc⟩
    · exact .inr (.inr h)

/-! ## Replacing in the words -/

variable {old new : List Char}

/-- A text without separators is replaced in each of the words. -/
theorem replaceAll_worded (hne : old ≠ []) (hseparator : ∀ s : Separator, s.char ∉ old)
    (hending : ∀ c ∈ ending.head?, c ∉ old) :
    replaceAll old new (L.worded word ending) =
      L.worded (fun t => replaceAll old new (word t)) (replaceAll old new ending) := by
  have hhead : ∀ fs : List Field,
      ∀ c ∈ (fs.flatMap (fun f => f.1.char :: word f.2) ++ ending).head?, c ∉ old := by
    intro fs c hc
    cases fs with
    | nil => exact hending c hc
    | cons f fs =>
      cases hc
      exact hseparator f.1
  have hfields : ∀ fs : List Field,
      replaceAll old new (fs.flatMap (fun f => f.1.char :: word f.2) ++ ending) =
        fs.flatMap (fun f => f.1.char :: replaceAll old new (word f.2)) ++
          replaceAll old new ending := by
    intro fs
    induction fs with
    | nil => rfl
    | cons f fs ih =>
      have hsplit : (f :: fs).flatMap (fun f => f.1.char :: word f.2) ++ ending =
          [f.1.char] ++ (word f.2 ++ (fs.flatMap (fun f => f.1.char :: word f.2) ++ ending)) := by
        simp
      rw [hsplit, replaceAll_append_left hne (by simpa using hseparator f.1),
        replaceAll_append (hhead fs), ih]
      simp
  unfold Layout.worded
  rw [replaceAll_append (hhead L.fields), hfields]

/-- No token has a blank in it. -/
private theorem blank_not_mem_token {c : Char} (h : isBlank c = true) (t : Token) :
    c ∉ t.text.toList := by
  have hall : ∀ c ∈ t.text.toList, isBlank c = false := by
    cases t <;> simp [Token.text, isBlank]
  intro hmem
  rw [hall c hmem] at h
  cases h

/-- No token is hidden in a number. -/
private theorem not_occursIn_digits (t : Token) {s : List Char} (h : ∀ c ∈ s, isDigit c = true) :
    occursIn t.text.toList s = false := by
  have hletter : 'Y' ∈ t.text.toList ∨ 'M' ∈ t.text.toList ∨ 'W' ∈ t.text.toList ∨
      'D' ∈ t.text.toList := by
    cases t <;> decide
  have hnone : ∀ c : Char, isDigit c = false → c ∉ s := by
    intro c hc hmem
    rw [h c hmem] at hc
    cases hc
  rcases hletter with hmem | hmem | hmem | hmem
  · exact not_occursIn_of_not_mem hmem (hnone _ (by decide))
  · exact not_occursIn_of_not_mem hmem (hnone _ (by decide))
  · exact not_occursIn_of_not_mem hmem (hnone _ (by decide))
  · exact not_occursIn_of_not_mem hmem (hnone _ (by decide))

/-- No token is hidden in one whose turn comes later. -/
private theorem all_pairwise :
    Token.all.Pairwise fun t t' => occursIn t.text.toList t'.text.toList = false := by
  decide

/-- The tokens are replaced in turn, until every word is a number. -/
private theorem replaceInTurn_tokens {lead : List Char} {values : Token → Option String}
    (hvalues : ∀ t ∈ L.tokens, values t = some (String.ofList (r.text t.slot)))
    (hdigits : ∀ t ∈ L.tokens, ∀ c ∈ r.text t.slot, isDigit c = true)
    (hlead : ∀ c ∈ lead, isBlank c = true)
    (hending : ∀ t : Token, occursIn t.text.toList ending = false)
    (hhead : ∀ t : Token, ∀ c ∈ ending.head?, c ∉ t.text.toList) :
    ∀ {remaining : List Token} {word : Token → List Char},
      (remaining.Pairwise fun t t' => occursIn t.text.toList t'.text.toList = false) →
      (∀ t ∈ L.tokens, word t = r.text t.slot ∨ word t = t.text.toList ∧ t ∈ remaining) →
      CalVer.replaceInTurn (remaining.map fun t => (t.text, values t))
          (lead ++ L.worded word ending) =
        lead ++ L.worded (fun t => r.text t.slot) ending := by
  intro remaining
  induction remaining with
  | nil =>
    intro word _ hword
    show lead ++ L.worded word ending = _
    rw [worded_congr fun t ht => (hword t ht).resolve_right (by simp)]
  | cons t remaining ih =>
    intro word hpairwise hword
    obtain ⟨hlater, hpairwise⟩ := List.pairwise_cons.mp hpairwise
    unfold CalVer.replaceInTurn at ih ⊢
    rw [List.map_cons, List.foldl_cons]
    cases hvalue : values t with
    | some value =>
      -- the token is replaced in every word that is still the token itself
      have hne := token_ne_nil t
      have hseparator : ∀ s : Separator, s.char ∉ t.text.toList := fun s =>
        not_mem_token (isDelimiter_separator s) t
      have hfront : ∀ c ∈ lead, c ∉ t.text.toList := fun c hc =>
        blank_not_mem_token (hlead c hc) t
      dsimp only
      rw [replaceAll_append_left hne hfront, replaceAll_worded hne hseparator (hhead t),
        replaceAll_of_not_occursIn (hending t)]
      refine ih hpairwise fun t' ht' => ?_
      rcases hword t' ht' with hnumber | ⟨htoken, hmem⟩
      · left
        rw [hnumber]
        exact replaceAll_of_not_occursIn (not_occursIn_digits t (hdigits t' ht'))
      · rw [htoken]
        rcases List.mem_cons.mp hmem with rfl | hmem
        · left
          rw [replaceAll_self hne, Option.some.inj (hvalue.symm.trans (hvalues t' ht')),
            String.toList_ofList]
        · exact .inr ⟨replaceAll_of_not_occursIn (hlater t' hmem), hmem⟩
    | none =>
      -- a token without a value is none of the layout and is left alone
      refine ih hpairwise fun t' ht' => ?_
      rcases hword t' ht' with hnumber | ⟨htoken, hmem⟩
      · exact .inl hnumber
      · refine .inr ⟨htoken, (List.mem_cons.mp hmem).resolve_left ?_⟩
        rintro rfl
        rw [hvalues t' ht'] at hvalue
        cases hvalue

end

/-! ## The modifier -/

/-- The modifier in the place of its name, still between the brackets of an optional one. -/
def ModifierForm.named (form : ModifierForm) (m : List Char) : List Char :=
  match form with
  | none => []
  | required s => s.char :: m
  | optional s => '[' :: s.char :: (m ++ [']'])

private theorem separator_not_mem_name (s : Separator) : s.char ∉ "MODIFIER".toList := by
  cases s <;> decide

private theorem replaceAll_named (form : ModifierForm) (m : List Char) :
    replaceAll "MODIFIER".toList m form.text = form.named m := by
  have hne : "MODIFIER".toList ≠ [] := by decide
  cases form with
  | none => rfl
  | required s =>
    show replaceAll "MODIFIER".toList m ([s.char] ++ "MODIFIER".toList) = _
    rw [replaceAll_append_left hne (by simpa using separator_not_mem_name s), replaceAll_self hne]
    rfl
  | optional s =>
    have hfront : ∀ c ∈ ['[', s.char], c ∉ "MODIFIER".toList := by
      simpa using separator_not_mem_name s
    have hend : replaceAll "MODIFIER".toList m [']'] = [']'] :=
      replaceAll_of_not_occursIn (by decide)
    show replaceAll "MODIFIER".toList m (['[', s.char] ++ ("MODIFIER".toList ++ [']'])) = _
    rw [replaceAll_append_left hne hfront, replaceAll_append (by simp), replaceAll_self hne, hend]
    rfl

/-- The text without the brackets in it. -/
def unbracketed (s : List Char) : List Char := (s.filter (· != '[')).filter (· != ']')

theorem unbracketed_append (s t : List Char) :
    unbracketed (s ++ t) = unbracketed s ++ unbracketed t := by
  unfold unbracketed
  rw [List.filter_append, List.filter_append]

theorem unbracketed_of_forall {s : List Char} (h : ∀ c ∈ s, c ≠ '[' ∧ c ≠ ']') :
    unbracketed s = s := by
  have hopening : s.filter (· != '[') = s :=
    List.filter_eq_self.mpr fun c hc => by simpa using (h c hc).1
  have hclosing : s.filter (· != ']') = s :=
    List.filter_eq_self.mpr fun c hc => by simpa using (h c hc).2
  unfold unbracketed
  rw [hopening, hclosing]

/-- Without its brackets the modifier stands as it is spelled. -/
private theorem unbracketed_named {form : ModifierForm} {m : List Char} (h : IsModifier m) :
    unbracketed (form.named m) = form.spelled (some m) := by
  have hm : unbracketed m = m := by
    refine unbracketed_of_forall fun c hc => ⟨?_, ?_⟩
    · rintro rfl
      simpa using h.2.1 _ hc
    · rintro rfl
      simpa using h.2.1 _ hc
  cases form with
  | none => rfl
  | required s =>
    have hseparator : unbracketed [s.char] = [s.char] := by cases s <;> rfl
    show unbracketed ([s.char] ++ m) = _
    rw [unbracketed_append, hseparator, hm]
    rfl
  | optional s =>
    have hseparator : unbracketed ['[', s.char] = [s.char] := by cases s <;> rfl
    show unbracketed (['[', s.char] ++ (m ++ [']'])) = _
    rw [unbracketed_append, unbracketed_append, hseparator, hm]
    show [s.char] ++ (m ++ []) = _
    rw [List.append_nil]
    rfl

/-- Without a modifier the last replacements take out the brackets. -/
private theorem replaceInTurn_none (s : List Char) :
    CalVer.replaceInTurn [("MODIFIER", none), ("[", some ""), ("]", some "")] s =
      unbracketed s := by
  show replaceAll [']'] [] (replaceAll ['['] [] s) = _
  rw [replaceAll_single, replaceAll_single]
  rfl

/-- A modifier is put in before the brackets are taken out. -/
private theorem replaceInTurn_some (m : String) (s : List Char) :
    CalVer.replaceInTurn [("MODIFIER", some m), ("[", some ""), ("]", some "")] s =
      unbracketed (replaceAll "MODIFIER".toList m.toList s) :=
  replaceInTurn_none (replaceAll "MODIFIER".toList m.toList s)

/-! ## Leaving out an optional modifier -/

private theorem dropOptional_append {s t : List Char} (h : '[' ∉ s) :
    CalVer.dropOptional 0 (s ++ t) = s ++ CalVer.dropOptional 0 t := by
  induction s with
  | nil => rfl
  | cons c s ih =>
    have hc : (c == '[') = false := by
      rw [beq_eq_false_iff_ne]
      rintro rfl
      exact h List.mem_cons_self
    rw [List.cons_append, CalVer.dropOptional]
    simp only [hc, Bool.false_and, Bool.false_eq_true, if_false]
    rw [ih fun hmem => h (List.mem_cons_of_mem c hmem), List.cons_append]

private theorem dropOptional_optional (s : Separator) (rest : List Char) :
    CalVer.dropOptional 0 ((ModifierForm.optional s).text ++ rest) =
      CalVer.dropOptional 0 rest := by
  cases s <;> simp [ModifierForm.text, Separator.char, CalVer.dropOptional]

/-- If there is no modifier, then nothing is left of the end of the format. -/
private theorem dropOptional_layout {L : Layout} {lead trail : List Char}
    (hlead : '[' ∉ lead) (htrail : '[' ∉ trail) (h : L.modifier.Admits none) :
    CalVer.dropOptional 0 (lead ++ (L.text ++ trail)) =
      lead ++ L.worded (·.text.toList) trail := by
  have hfront : '[' ∉ lead ++ L.worded (·.text.toList) [] := by
    intro hmem
    rcases List.mem_append.mp hmem with hmem | hmem
    · exact hlead hmem
    · rcases mem_worded hmem with ⟨t, -, hmem⟩ | ⟨s, hs⟩ | hmem
      · exact not_mem_token rfl t hmem
      · cases s <;> cases hs
      · cases hmem
  have hend : CalVer.dropOptional 0 (L.modifier.text ++ trail) = trail := by
    have hrest : CalVer.dropOptional 0 trail = trail := by
      have := dropOptional_append (t := []) htrail
      rwa [List.append_nil, CalVer.dropOptional, List.append_nil] at this
    cases hform : L.modifier with
    | none => exact hrest
    | required s =>
      rw [hform] at h
      obtain ⟨m, hm, -⟩ := h
      cases hm
    | optional s => rw [dropOptional_optional, hrest]
  have hparts : lead ++ (L.text ++ trail) =
      (lead ++ L.worded (·.text.toList) []) ++ (L.modifier.text ++ trail) := by
    rw [L.text_eq_worded, worded_append, List.append_assoc, worded_append, List.nil_append]
  rw [hparts, dropOptional_append hfront, hend, List.append_assoc, worded_append, List.nil_append]

/-! ## The text that is written -/

/-- Blanks, digits and separators are not in the name of the modifier and are no brackets. -/
private theorem not_mem_marks {c : Char}
    (h : isBlank c = true ∨ isDigit c = true ∨ ∃ s : Separator, c = s.char) :
    c ∉ "MODIFIER".toList ∧ c ≠ '[' ∧ c ≠ ']' := by
  have hblank : ∀ d ∈ "MODIFIER[]".toList, isBlank d = false := by
    simp [isBlank]
  have hdigit : "MODIFIER[]".toList.all (fun d => !isDigit d) = true := by decide
  have hseparator : ∀ s : Separator, s.char ∉ "MODIFIER[]".toList := by
    intro s
    cases s <;> decide
  have hnot : c ∉ "MODIFIER[]".toList := by
    intro hmem
    rcases h with h | h | ⟨s, rfl⟩
    · rw [hblank c hmem] at h
      cases h
    · have hnone := List.all_eq_true.mp hdigit c hmem
      rw [h] at hnone
      cases hnone
    · exact hseparator s hmem
  refine ⟨fun hmem => hnot ?_, ?_, ?_⟩
  · exact List.mem_append_left ['[', ']'] hmem
  · rintro rfl
    exact hnot (by decide)
  · rintro rfl
    exact hnot (by decide)

/-- What stands behind the words while the tokens are replaced: the modifier, if the version has
one to be put in, and the blanks. -/
def Layout.remainder (L : Layout) (r : Reading) (trail : List Char) : List Char :=
  (if r.modifier.isNone then [] else L.modifier.text) ++ trail

section
variable {L : Layout} {r : Reading} {version lead trail : List Char} {fmt : String}

/-- Without a modifier the end of the format goes first. -/
private theorem dropOptional_remainder (hr : L.Spells r version)
    (hlead : ∀ c ∈ lead, isBlank c = true) (htrail : ∀ c ∈ trail, isBlank c = true) :
    (if r.modifier.isNone then CalVer.dropOptional 0 (lead ++ (L.text ++ trail))
      else lead ++ (L.text ++ trail)) =
      lead ++ L.worded (·.text.toList) (L.remainder r trail) := by
  unfold Layout.remainder
  cases hmodifier : r.modifier with
  | none =>
    have hadmits := hr.modifier
    rw [hmodifier] at hadmits
    exact dropOptional_layout (fun hmem => (not_mem_marks (.inl (hlead _ hmem))).2.1 rfl)
      (fun hmem => (not_mem_marks (.inl (htrail _ hmem))).2.1 rfl) hadmits
  | some m =>
    show lead ++ (L.text ++ trail) = lead ++ L.worded _ (L.modifier.text ++ trail)
    rw [L.text_eq_worded, worded_append]

private theorem head_remainder (htrail : ∀ c ∈ trail, isBlank c = true) (t : Token) :
    ∀ c ∈ (L.remainder r trail).head?, c ∉ t.text.toList := by
  have hblank : ∀ c ∈ trail.head?, c ∉ t.text.toList := fun c hc =>
    blank_not_mem_token (htrail c (List.mem_of_mem_head? hc)) t
  intro c hc
  unfold Layout.remainder at hc
  split at hc
  · exact hblank c hc
  · cases hform : L.modifier with
    | none =>
      rw [hform] at hc
      exact hblank c hc
    | required s =>
      rw [hform] at hc
      cases hc
      exact not_mem_token (isDelimiter_separator s) t
    | optional s =>
      rw [hform] at hc
      cases hc
      exact not_mem_token rfl t

private theorem not_occursIn_remainder (htrail : ∀ c ∈ trail, isBlank c = true) (t : Token) :
    occursIn t.text.toList (L.remainder r trail) = false := by
  have hblank : ∀ c ∈ trail, c ∉ t.text.toList := fun c hc => blank_not_mem_token (htrail c hc) t
  have hnone : occursIn t.text.toList trail = false := by
    obtain ⟨c, hc⟩ := List.exists_mem_of_ne_nil _ (token_ne_nil t)
    exact not_occursIn_of_not_mem hc fun hmem => hblank c hmem hc
  unfold Layout.remainder
  refine not_occursIn_append (fun c hc => hblank c (List.mem_of_mem_head? hc)) ?_ hnone
  split
  · cases t <;> decide
  · exact not_occursIn_modifier t L.modifier

section
variable (hdigits : ∀ t ∈ L.tokens, ∀ c ∈ r.text t.slot, isDigit c = true)
variable (hmodifier : ∀ m ∈ r.modifier, IsModifier m)
variable (hlead : ∀ c ∈ lead, isBlank c = true) (htrail : ∀ c ∈ trail, isBlank c = true)
include hdigits hlead

/-- Up to its modifier, a version between blanks has nothing that the last replacements look
for. -/
private theorem front_not_mem_marks :
    ∀ c ∈ lead ++ L.worded (fun t => r.text t.slot) [],
      c ∉ "MODIFIER".toList ∧ c ≠ '[' ∧ c ≠ ']' := by
  intro c hc
  apply not_mem_marks
  rcases List.mem_append.mp hc with hc | hc
  · exact .inl (hlead c hc)
  · rcases mem_worded hc with ⟨t, ht, hc⟩ | hc | hc
    · exact .inr (.inl (hdigits t ht c hc))
    · exact .inr (.inr hc)
    · cases hc

include hmodifier htrail

/-- What the tokens have become, between blanks and with the modifier that is still to be put
in, is written as the version. -/
private theorem replaceInTurn_modifier :
    CalVer.replaceInTurn
        [("MODIFIER", r.modifier.map String.ofList), ("[", some ""), ("]", some "")]
        (lead ++ L.worded (fun t => r.text t.slot) (L.remainder r trail)) =
      lead ++ (L.worded (fun t => r.text t.slot) (L.modifier.spelled r.modifier) ++ trail) := by
  have hfront := front_not_mem_marks hdigits hlead
  have hback : ∀ c ∈ trail, c ∉ "MODIFIER".toList ∧ c ≠ '[' ∧ c ≠ ']' := fun c hc =>
    not_mem_marks (.inl (htrail c hc))
  have hkept : unbracketed trail = trail := unbracketed_of_forall fun c hc => (hback c hc).2
  have hparts : ∀ ending, lead ++ L.worded (fun t => r.text t.slot) ending =
      (lead ++ L.worded (fun t => r.text t.slot) []) ++ ending := by
    intro ending
    rw [List.append_assoc, worded_append, List.nil_append]
  unfold Layout.remainder
  rw [worded_append, hparts, hparts (_ ++ trail)]
  generalize lead ++ L.worded (fun t => r.text t.slot) [] = front at hfront
  have hfrontKept : unbracketed front = front :=
    unbracketed_of_forall fun c hc => (hfront c hc).2
  cases hsome : r.modifier with
  | none =>
    have hnone : L.modifier.spelled none = [] := by
      cases L.modifier <;> rfl
    rw [hnone]
    show CalVer.replaceInTurn _ (front ++ trail) = front ++ trail
    rw [Option.map_none, replaceInTurn_none, unbracketed_append, hfrontKept, hkept]
  | some m =>
    have hm : IsModifier m := hmodifier m hsome
    have hsame : replaceAll "MODIFIER".toList m trail = trail :=
      replaceAll_of_not_occursIn <|
        not_occursIn_of_not_mem (c := 'M') (by decide) fun hmem =>
          (hback 'M' hmem).1 (by decide)
    have hhead : ∀ c ∈ trail.head?, c ∉ "MODIFIER".toList := fun c hc =>
      (hback c (List.mem_of_mem_head? hc)).1
    show CalVer.replaceInTurn _ (front ++ (L.modifier.text ++ trail)) =
      front ++ (L.modifier.spelled (some m) ++ trail)
    rw [Option.map_some, replaceInTurn_some, String.toList_ofList (l := m),
      replaceAll_append_left (by decide) fun c hc => (hfront c hc).1,
      replaceAll_append hhead, replaceAll_named, hsame, unbracketed_append, unbracketed_append,
      unbracketed_named hm, hfrontKept, hkept]

/-- A format between blanks in which the tokens are replaced by numbers, whatever replaces the
tokens that it does not have, and then the modifier. -/
theorem replaceInTurn_layout {values : Token → Option String}
    (hvalues : ∀ t ∈ L.tokens, values t = some (String.ofList (r.text t.slot))) :
    CalVer.replaceInTurn ((Token.all.map fun t => (t.text, values t)) ++
          [("MODIFIER", r.modifier.map String.ofList), ("[", some ""), ("]", some "")])
        (lead ++ L.worded (·.text.toList) (L.remainder r trail)) =
      lead ++ (L.worded (fun t => r.text t.slot) (L.modifier.spelled r.modifier) ++ trail) := by
  have htokens : CalVer.replaceInTurn (Token.all.map fun t => (t.text, values t))
      (lead ++ L.worded (·.text.toList) (L.remainder r trail)) =
        lead ++ L.worded (fun t => r.text t.slot) (L.remainder r trail) :=
    replaceInTurn_tokens hvalues hdigits hlead (not_occursIn_remainder htrail)
      (head_remainder htrail) all_pairwise fun t _ => .inr ⟨rfl, Token.mem_all t⟩
  have hend := replaceInTurn_modifier hdigits hmodifier hlead htrail
  unfold CalVer.replaceInTurn at htokens hend ⊢
  rw [List.foldl_append, htokens]
  exact hend

end

/-- A version is written as it was spelled, with the blanks around its format. -/
theorem CalVer.text_layout (hr : L.Spells r version) (hlead : ∀ c ∈ lead, isBlank c = true)
    (htrail : ∀ c ∈ trail, isBlank c = true) (hfmt : fmt.toList = lead ++ (L.text ++ trail)) :
    (L.version fmt r).text.toList = lead ++ (version ++ trail) := by
  have hpattern : (if (r.modifier.map String.ofList).isNone then dropOptional 0 fmt.toList
      else fmt.toList) = lead ++ L.worded (·.text.toList) (L.remainder r trail) := by
    rw [hfmt, Option.isNone_map]
    exact dropOptional_remainder hr hlead htrail
  have hvalues : ∀ t ∈ L.tokens,
      (L.version fmt r).slot t.slot = some (String.ofList (r.text t.slot)) := by
    intro t ht
    rw [Layout.slot_version]
    exact if_pos (List.mem_map_of_mem ht)
  have hwritten := replaceInTurn_layout (fun t ht => (hr.numbers t ht).isDigit.2) hr.isModifier
    hlead htrail hvalues
  unfold CalVer.text CalVer.replacements
  rw [String.toList_ofList, hr.eq_worded, ← hwritten, ← hpattern]
  rfl

end

/-! ## The main theorem -/

/-- Without the blanks around it, the text of a version is the one that was read. -/
private theorem stripped_text {L : Layout} {fmt version : String} {v : CalVer}
    (h : stripped fmt.toList = L.text) (hv : CalVer.of fmt version = .ok v) :
    stripped v.text.toList = stripped version.toList := by
  obtain ⟨r, hr, -, rfl⟩ := CalVer.exists_reading h hv
  obtain ⟨lead, trail, hfmt, hlead, htrail⟩ := exists_blanks fmt.toList
  rw [h] at hfmt
  rw [CalVer.text_layout hr hlead htrail hfmt, stripped_append hlead htrail, stripped_stripped]

/-- What was read under a documented format is written as it was, but for the blanks around it,
and reading that gives the same version again. Texts give the same version exactly if they
differ in nothing but the blanks around them. -/
theorem CalVer.of_text {L : Layout} {fmt version : String} {v : CalVer}
    (h : stripped fmt.toList = L.text) (hv : CalVer.of fmt version = .ok v) :
    strip v.text = strip version ∧ CalVer.of fmt v.text = .ok v ∧
      ∀ version' v', CalVer.of fmt version' = .ok v' →
        (v = v' ↔ strip version = strip version') := by
  -- what a text is read as depends on nothing but the text between its blanks
  have hread : ∀ {text text' : String}, stripped text'.toList = stripped text.toList →
      CalVer.of fmt text = .ok v → CalVer.of fmt text' = .ok v := by
    intro text text' hsame hok
    obtain ⟨r, hr, hday, rfl⟩ := CalVer.exists_reading h hok
    exact CalVer.of_reading h (hsame ▸ hr) hday
  have hwritten := stripped_text h hv
  refine ⟨congrArg String.ofList hwritten, hread hwritten hv, fun version' v' hv' => ?_⟩
  have hwritten' := stripped_text h hv'
  constructor
  · rintro rfl
    exact congrArg String.ofList (hwritten.symm.trans hwritten')
  · intro hsame
    have hv'' := hread (String.ofList_injective hsame).symm hv
    rw [hv'] at hv''
    exact (Except.ok.inj hv'').symm

/-- A modifier that looks like tokens is written as it is. -/
theorem CalVer.of_text_tokens :
    let fmt := "\tYYYY.0W_MICRO[-MODIFIER] "
    stripped fmt.toList =
        Layout.text ⟨.full, .week .point true, none, some .underscore, .optional .hyphen⟩ ∧
      ∃ v, CalVer.of fmt " 2026.07_10-MM-0D\n" = .ok v ∧ strip v.text = "2026.07_10-MM-0D" ∧
        CalVer.of fmt v.text = .ok v := by
  let v : CalVer := {
    pattern := "\tYYYY.0W_MICRO[-MODIFIER] "
    year := some "2026"
    month := none
    week := some "07"
    day := none
    minor := none
    micro := some "10"
    modifier := some "MM-0D" }
  have hfmt : stripped v.pattern.toList =
      Layout.text ⟨.full, .week .point true, none, some .underscore, .optional .hyphen⟩ := by
    decide
  have hv : CalVer.of v.pattern " 2026.07_10-MM-0D\n" = .ok v := by decide +kernel
  obtain ⟨hwritten, hagain, -⟩ := CalVer.of_text hfmt hv
  have hstrip : strip " 2026.07_10-MM-0D\n" = "2026.07_10-MM-0D" := by decide
  exact ⟨hfmt, v, hv, hwritten.trans hstrip, hagain⟩

end ReleaseRunner.Version
