import ReleaseRunner.Proofs.Version.LayoutPattern

/-!
# The grammar of a documented format

A documented format spells versions: a text for each of its tokens with the separators between
them, and at the end a modifier, which an optional one may leave out. The main statements are
that a version is spelled in one way only (`Layout.Spells.unique`), and that the pattern of the
format reads the versions that it spells and no others, with their texts as its groups
(`reads_layout`).

The first statement is not for free, because the hyphen that parts two fields may also stand
in a modifier. It holds since the texts of the tokens are made of digits, and no separator is
a digit.
-/

namespace ReleaseRunner.Version

open Pattern Text

/-! ## Versions in a format -/

/-- A modifier: letters, digits and hyphens, without a digit at the start. -/
def IsModifier (s : List Char) : Prop :=
  s ≠ [] ∧ (∀ c ∈ s, c.isAlphanum = true ∨ c = '-') ∧ ∀ c ∈ s.head?, c.isDigit = false

/-- The texts of a version: one for each number, and the modifier unless it is left out. -/
structure Reading where
  text : Slot → List Char
  modifier : Option (List Char)

/-- The texts of fields, each behind its separator. -/
def spelled (text : Slot → List Char) (fs : List Field) : List Char :=
  fs.flatMap fun f => f.1.char :: text f.2.slot

/-- The modifiers that a version may have. -/
def ModifierForm.Admits : ModifierForm → Option (List Char) → Prop
  | none, modifier => modifier = .none
  | required _, modifier => ∃ s, modifier = some s ∧ IsModifier s
  | optional _, modifier => ∀ s ∈ modifier, IsModifier s

/-- The modifier behind its separator; nothing where it is left out. -/
def ModifierForm.spelled (form : ModifierForm) (modifier : Option (List Char)) : List Char :=
  match form.separator?, modifier with
  | some c, some s => c :: s
  | _, _ => []

/-- The text is a version in the format, with the given texts in the places of the tokens and
of the modifier. -/
structure Layout.Spells (L : Layout) (r : Reading) (version : List Char) : Prop where
  numbers : ∀ t ∈ L.tokens, t.Admits (r.text t.slot)
  modifier : L.modifier.Admits r.modifier
  version_eq : version =
    r.text .year ++ (spelled r.text L.fields ++ L.modifier.spelled r.modifier)

/-! ## A version is spelled in one way -/

/-- Where digits end is no matter of choice. -/
theorem digits_append_inj {s s' rest rest' : List Char} (hs : ∀ c ∈ s, isDigit c = true)
    (hs' : ∀ c ∈ s', isDigit c = true) (hrest : ∀ c ∈ rest.head?, isDigit c = false)
    (hrest' : ∀ c ∈ rest'.head?, isDigit c = false) (h : s ++ rest = s' ++ rest') :
    s = s' ∧ rest = rest' := by
  have hstop : ∀ rest : List Char, (∀ c ∈ rest.head?, isDigit c = false) →
      rest.takeWhile isDigit = [] := by
    intro rest hrest
    cases rest with
    | nil => rfl
    | cons c rest => simp [hrest c rfl]
  have hsame : s = s' := by
    have htake := congrArg (List.takeWhile isDigit) h
    rw [List.takeWhile_append_of_pos hs, List.takeWhile_append_of_pos hs', hstop rest hrest,
      hstop rest' hrest', List.append_nil, List.append_nil] at htake
    exact htake
  subst hsame
  exact ⟨rfl, List.append_cancel_left h⟩

/-- Separators are no digits. -/
private theorem not_isDigit_separator (s : Separator) : isDigit s.char = false := by
  cases s <;> decide

/-- No digit follows the text of a token. -/
theorem not_isDigit_of_mem_head (text : Slot → List Char) (fs : List Field)
    (form : ModifierForm) (modifier : Option (List Char)) :
    ∀ c ∈ (spelled text fs ++ form.spelled modifier).head?, isDigit c = false := by
  intro c hc
  -- it is the separator of the next field, or that of the modifier
  cases fs with
  | cons f fs =>
    cases hc
    exact not_isDigit_separator f.1
  | nil =>
    cases form with
    | none => cases hc
    | required s =>
      cases modifier with
      | none => cases hc
      | some m =>
        cases hc
        exact not_isDigit_separator s
    | optional s =>
      cases modifier with
      | none => cases hc
      | some m =>
        cases hc
        exact not_isDigit_separator s

private theorem modifier_unique {form : ModifierForm} {m m' : Option (List Char)}
    (h : form.Admits m) (h' : form.Admits m') (hsame : form.spelled m = form.spelled m') :
    m = m' := by
  cases form with
  | none => exact h.trans h'.symm
  | required s =>
    obtain ⟨t, rfl, -⟩ := h
    obtain ⟨t', rfl, -⟩ := h'
    exact congrArg some (List.cons.inj hsame).2
  | optional s =>
    cases m with
    | none =>
      cases m' with
      | none => rfl
      | some t' => cases hsame
    | some t =>
      cases m' with
      | none => cases hsame
      | some t' => exact congrArg some (List.cons.inj hsame).2

section
variable {text text' : Slot → List Char} {form : ModifierForm} {m m' : Option (List Char)}

/-- Field by field, two spellings of one text have the same digits. -/
private theorem spelled_unique {fs : List Field} (h : ∀ f ∈ fs, f.2.Admits (text f.2.slot))
    (h' : ∀ f ∈ fs, f.2.Admits (text' f.2.slot))
    (hsame : spelled text fs ++ form.spelled m = spelled text' fs ++ form.spelled m') :
    (∀ f ∈ fs, text f.2.slot = text' f.2.slot) ∧ form.spelled m = form.spelled m' := by
  induction fs with
  | nil => exact ⟨by simp, hsame⟩
  | cons f fs ih =>
    have hrest : text f.2.slot ++ (spelled text fs ++ form.spelled m) =
        text' f.2.slot ++ (spelled text' fs ++ form.spelled m') := by
      simpa [spelled] using hsame
    -- both spellings come to the end of the digits at the same place
    obtain ⟨hfirst, hrest⟩ := digits_append_inj (h f List.mem_cons_self).isDigit.2
      (h' f List.mem_cons_self).isDigit.2 (not_isDigit_of_mem_head _ _ _ _)
      (not_isDigit_of_mem_head _ _ _ _) hrest
    obtain ⟨hfields, hend⟩ := ih (fun f hf => h f (List.mem_cons_of_mem _ hf))
      (fun f hf => h' f (List.mem_cons_of_mem _ hf)) hrest
    refine ⟨?_, hend⟩
    intro f' hf'
    rcases List.mem_cons.mp hf' with rfl | hf'
    · exact hfirst
    · exact hfields f' hf'

end

/-- A version is spelled in one way only. -/
theorem Layout.Spells.unique {L : Layout} {r r' : Reading} {version : List Char}
    (h : L.Spells r version) (h' : L.Spells r' version) :
    (∀ t ∈ L.tokens, r.text t.slot = r'.text t.slot) ∧ r.modifier = r'.modifier := by
  have hyear := (h.numbers _ List.mem_cons_self).isDigit.2
  have hyear' := (h'.numbers _ List.mem_cons_self).isDigit.2
  rw [YearForm.slot_token] at hyear hyear'
  have hsame := h.version_eq.symm.trans h'.version_eq
  obtain ⟨hfirst, hrest⟩ := digits_append_inj hyear hyear' (not_isDigit_of_mem_head _ _ _ _)
    (not_isDigit_of_mem_head _ _ _ _) hsame
  have hfields : ∀ f ∈ L.fields, f.2 ∈ L.tokens := fun f hf =>
    List.mem_cons_of_mem _ (List.mem_map_of_mem hf)
  obtain ⟨hfields, hend⟩ := spelled_unique (fun f hf => h.numbers _ (hfields f hf))
    (fun f hf => h'.numbers _ (hfields f hf)) hrest
  refine ⟨?_, modifier_unique h.modifier h'.modifier hend⟩
  intro t ht
  rcases List.mem_cons.mp ht with rfl | ht
  · rw [YearForm.slot_token]
    exact hfirst
  · obtain ⟨f, hf, rfl⟩ := List.mem_map.mp ht
    exact hfields f hf

/-! ## What the pattern reads -/

theorem reads_literal {c : Char} {s : List Char} {g : Groups} :
    Reads (literal c) s g ↔ s = [c] ∧ g = [] := by
  constructor
  · rintro ⟨d, hd, rfl, rfl⟩
    have hsame : d.toNat = c.toNat := by
      simpa [CharSet.holds, ClassItem.holds] using hd
    rw [Char.toNat_inj.mp hsame]
    exact ⟨rfl, rfl⟩
  · rintro ⟨rfl, rfl⟩
    exact ⟨c, by simp [CharSet.holds, ClassItem.holds], rfl, rfl⟩

theorem reads_token_capture {i : Nat} {t : Token} {s : List Char} {g : Groups} :
    Reads (capture i t.pattern) s g ↔ t.Admits s ∧ g = [(i, s)] := by
  constructor
  · rintro ⟨g, rfl, hreads⟩
    obtain ⟨rfl, hadmits⟩ := (reads_token t s g).mp hreads
    exact ⟨hadmits, rfl⟩
  · rintro ⟨hadmits, rfl⟩
    exact ⟨[], rfl, (reads_token t s []).mpr ⟨rfl, hadmits⟩⟩

/-- The groups that tokens capture, the last one first. -/
def tokenGroups (text : Slot → List Char) (i : Nat) : List Token → Groups
  | [] => []
  | t :: ts => tokenGroups text (i + 1) ts ++ [(i, text t.slot)]

section
variable {text text' : Slot → List Char}

private theorem spelled_congr {fs : List Field} (h : ∀ f ∈ fs, text f.2.slot = text' f.2.slot) :
    spelled text fs = spelled text' fs := by
  induction fs with
  | nil => rfl
  | cons f fs ih =>
    have hrest := ih fun f hf => h f (List.mem_cons_of_mem _ hf)
    unfold spelled at hrest ⊢
    rw [List.flatMap_cons, List.flatMap_cons, hrest, h f List.mem_cons_self]

private theorem tokenGroups_congr {ts : List Token} (h : ∀ t ∈ ts, text t.slot = text' t.slot)
    (i : Nat) : tokenGroups text i ts = tokenGroups text' i ts := by
  induction ts generalizing i with
  | nil => rfl
  | cons t ts ih =>
    unfold tokenGroups
    rw [ih (fun t ht => h t (List.mem_cons_of_mem _ ht)), h t List.mem_cons_self]

end

section
variable {qs : List Pattern}

/-- The patterns of a token and of the fields behind it, those of the first field apart. -/
private theorem reads_tokenPatterns_cons {i : Nat} {t : Token} {f : Field} {fs : List Field}
    {s : List Char} {g : Groups} :
    Reads (sequence (tokenPatterns i t (f :: fs) ++ qs)) s g ↔
      ∃ s₁ s₂ g₂, t.Admits s₁ ∧ Reads (sequence (tokenPatterns (i + 1) f.2 fs ++ qs)) s₂ g₂ ∧
        s = s₁ ++ f.1.char :: s₂ ∧ g = g₂ ++ [(i, s₁)] := by
  obtain ⟨sep, t'⟩ := f
  show Reads (sequence (capture i t.pattern :: literal sep.char ::
    (tokenPatterns (i + 1) t' fs ++ qs))) s g ↔ _
  rw [reads_sequence_cons]
  constructor
  · rintro ⟨s₁, _, g₁, _, rfl, rfl, hfirst, hmore⟩
    obtain ⟨hadmits, rfl⟩ := reads_token_capture.mp hfirst
    obtain ⟨s₂, s₃, g₂, g₃, rfl, rfl, hliteral, htail⟩ := reads_sequence_cons.mp hmore
    obtain ⟨rfl, rfl⟩ := reads_literal.mp hliteral
    rw [List.append_nil]
    exact ⟨s₁, s₃, g₃, hadmits, htail, rfl, rfl⟩
  · rintro ⟨s₁, s₂, g₂, hadmits, hmore, rfl, rfl⟩
    have hfirst : Reads (capture i t.pattern) s₁ [(i, s₁)] :=
      reads_token_capture.mpr ⟨hadmits, rfl⟩
    have hliteral : Reads (literal sep.char) [sep.char] [] := reads_literal.mpr ⟨rfl, rfl⟩
    refine ⟨s₁, sep.char :: s₂, [(i, s₁)], g₂, rfl, rfl, hfirst, ?_⟩
    apply reads_sequence_cons.mpr
    exact ⟨[sep.char], s₂, [], g₂, rfl, (List.append_nil g₂).symm, hliteral, hmore⟩

/-- The patterns of tokens read a text for each of them, with the separators between. As no two
tokens stand for the same number, the texts can be told by the numbers they stand for. -/
private theorem tokenPatterns_sound {fs : List Field} {i : Nat} {t : Token} {s : List Char}
    {g : Groups} (hdistinct : ((t :: fs.map (·.2)).map Token.slot).Nodup)
    (h : Reads (sequence (tokenPatterns i t fs ++ qs)) s g) :
    ∃ (text : Slot → List Char) (s' : List Char) (g' : Groups),
      (∀ t' ∈ t :: fs.map (·.2), t'.Admits (text t'.slot)) ∧
      s = text t.slot ++ (spelled text fs ++ s') ∧
      g = g' ++ tokenGroups text i (t :: fs.map (·.2)) ∧ Reads (sequence qs) s' g' := by
  induction fs generalizing i t s g with
  | nil =>
    have h : Reads (sequence (capture i t.pattern :: qs)) s g := h
    obtain ⟨s₁, s₂, g₁, g₂, rfl, rfl, hfirst, hrest⟩ := reads_sequence_cons.mp h
    obtain ⟨hadmits, rfl⟩ := reads_token_capture.mp hfirst
    exact ⟨fun _ => s₁, s₂, g₂, by simpa using hadmits, rfl, rfl, hrest⟩
  | cons f fs ih =>
    obtain ⟨s₁, _, _, hadmits, hmore, rfl, rfl⟩ := reads_tokenPatterns_cons.mp h
    obtain ⟨hnew, hdistinct⟩ := List.nodup_cons.mp hdistinct
    obtain ⟨text, s', g', hrest, rfl, rfl, htail⟩ := ih hdistinct hmore
    -- the text of the first token is put beside those of the others
    let text' : Slot → List Char := fun slot => if slot = t.slot then s₁ else text slot
    have hfirst : text' t.slot = s₁ := if_pos rfl
    have hsame : ∀ t' ∈ f.2 :: fs.map (·.2), text t'.slot = text' t'.slot := by
      intro t' ht'
      have hother : t'.slot ≠ t.slot := by
        intro hslot
        apply hnew
        rw [← hslot]
        exact List.mem_map_of_mem ht'
      exact (if_neg hother).symm
    have hspelled : spelled text fs = spelled text' fs :=
      spelled_congr fun f hf => hsame f.2 (List.mem_cons_of_mem _ (List.mem_map_of_mem hf))
    refine ⟨text', s', g', ?_, ?_, ?_, htail⟩
    · intro t' ht'
      rcases List.mem_cons.mp ht' with rfl | ht'
      · rw [hfirst]
        exact hadmits
      · rw [← hsame t' ht']
        exact hrest t' ht'
    · rw [hfirst, hspelled, hsame f.2 List.mem_cons_self]
      simp [spelled]
    · show _ = g' ++ (tokenGroups text' (i + 1) (f.2 :: fs.map (·.2)) ++ [(i, text' t.slot)])
      rw [hfirst, tokenGroups_congr hsame, List.append_assoc]

private theorem tokenPatterns_complete {text : Slot → List Char} {s' : List Char} {g' : Groups}
    {fs : List Field} {i : Nat} {t : Token}
    (h : ∀ t' ∈ t :: fs.map (·.2), t'.Admits (text t'.slot)) (hrest : Reads (sequence qs) s' g') :
    Reads (sequence (tokenPatterns i t fs ++ qs)) (text t.slot ++ (spelled text fs ++ s'))
      (g' ++ tokenGroups text i (t :: fs.map (·.2))) := by
  induction fs generalizing i t with
  | nil =>
    have hfirst : Reads (capture i t.pattern) (text t.slot) [(i, text t.slot)] :=
      reads_token_capture.mpr ⟨h t List.mem_cons_self, rfl⟩
    apply reads_sequence_cons.mpr
    exact ⟨text t.slot, s', [(i, text t.slot)], g', rfl, rfl, hfirst, hrest⟩
  | cons f fs ih =>
    have hmore := ih (i := i + 1) (t := f.2) fun t' ht' => h t' (List.mem_cons_of_mem _ ht')
    apply reads_tokenPatterns_cons.mpr
    refine ⟨text t.slot, _, _, h t List.mem_cons_self, hmore, ?_, ?_⟩
    · simp [spelled]
    · simp [tokenGroups]

end

/-! ### The modifier -/

/-- The characters of a modifier, by their codes. -/
theorem alphanumeric_iff (c : Char) :
    c.isAlphanum = true ∨ c = '-' ↔ 48 ≤ c.toNat ∧ c.toNat ≤ 57 ∨ 97 ≤ c.toNat ∧ c.toNat ≤ 122 ∨
      65 ≤ c.toNat ∧ c.toNat ≤ 90 ∨ c.toNat = 45 := by
  have hhyphen : c = '-' ↔ c.toNat = 45 := by
    rw [← Char.toNat_inj]
    rfl
  rw [hhyphen]
  simp [Char.isAlphanum, Char.isAlpha, Char.isUpper, Char.isLower, Char.isDigit,
    UInt32.le_iff_toNat_le]
  omega

theorem not_isDigit_iff (c : Char) :
    c.isDigit = false ↔ c.toNat < 48 ∨ 57 < c.toNat := by
  simp [Char.isDigit, UInt32.le_iff_toNat_le]
  omega

/-- The letters and the hyphen, as a set. -/
theorem holds_letter (c : Char) :
    CharSet.holds ⟨false, [.range 97 122, .range 65 90, .single 45]⟩ false false c = true ↔
      (c.isAlphanum = true ∨ c = '-') ∧ c.isDigit = false := by
  rw [alphanumeric_iff, not_isDigit_iff]
  simp [CharSet.holds, ClassItem.holds]
  omega

/-- The letters, the digits and the hyphen, as a set. -/
theorem holds_alphanumeric (c : Char) :
    CharSet.holds ⟨false, [.range 48 57, .range 97 122, .range 65 90, .single 45]⟩ false false c =
      true ↔ c.isAlphanum = true ∨ c = '-' := by
  rw [alphanumeric_iff]
  simp [CharSet.holds, ClassItem.holds]

theorem reads_modifier {s : List Char} {g : Groups} :
    Reads modifierPattern s g ↔ g = [] ∧ IsModifier s := by
  unfold modifierPattern
  rw [reads_char_repeated]
  constructor
  · rintro ⟨rfl, c, rest, rfl, hc, hrest⟩
    obtain ⟨hc, hdigit⟩ := (holds_letter c).mp hc
    refine ⟨rfl, List.cons_ne_nil c rest, ?_, ?_⟩
    · intro d hd
      rcases List.mem_cons.mp hd with rfl | hd
      · exact hc
      · exact (holds_alphanumeric d).mp (hrest d hd)
    · intro d hd
      cases hd
      exact hdigit
  · rintro ⟨rfl, hne, hall, hdigit⟩
    obtain ⟨c, rest, rfl⟩ := List.exists_cons_of_ne_nil hne
    refine ⟨rfl, c, rest, rfl, (holds_letter c).mpr ⟨hall c List.mem_cons_self, hdigit c rfl⟩, ?_⟩
    intro d hd
    exact (holds_alphanumeric d).mpr (hall d (List.mem_cons_of_mem _ hd))

/-- A modifier behind its separator. -/
private theorem reads_separated {i : Nat} {c : Char} {s : List Char} {g : Groups} :
    Reads (seq (literal c) (capture i modifierPattern)) s g ↔
      ∃ m, IsModifier m ∧ s = c :: m ∧ g = [(i, m)] := by
  constructor
  · rintro ⟨_, m, _, _, rfl, rfl, hliteral, g, rfl, hreads⟩
    obtain ⟨rfl, rfl⟩ := reads_literal.mp hliteral
    obtain ⟨rfl, hmodifier⟩ := reads_modifier.mp hreads
    exact ⟨m, hmodifier, rfl, rfl⟩
  · rintro ⟨m, hmodifier, rfl, rfl⟩
    have hreads : Reads modifierPattern m [] := reads_modifier.mpr ⟨rfl, hmodifier⟩
    exact ⟨[c], m, [], [(i, m)], rfl, rfl, reads_literal.mpr ⟨rfl, rfl⟩, [], rfl, hreads⟩

/-- How the patterns of a modifier read the end of a version. -/
private theorem reads_modifierPatterns {i : Nat} {m : ModifierForm} {s : List Char} {g : Groups} :
    Reads (sequence (m.patterns i)) s g ↔
      ∃ modifier, m.Admits modifier ∧ s = m.spelled modifier ∧ g = modifier.toList.map (i, ·) := by
  cases m with
  | none =>
    constructor
    · rintro ⟨rfl, rfl⟩
      exact ⟨none, rfl, rfl, rfl⟩
    · rintro ⟨_, rfl, rfl, rfl⟩
      exact ⟨rfl, rfl⟩
  | required sep =>
    show Reads (seq (literal sep.char) (capture i modifierPattern)) s g ↔ _
    rw [reads_separated]
    constructor
    · rintro ⟨m, hm, rfl, rfl⟩
      exact ⟨some m, ⟨m, rfl, hm⟩, rfl, rfl⟩
    · rintro ⟨_, ⟨m, rfl, hm⟩, rfl, rfl⟩
      exact ⟨m, hm, rfl, rfl⟩
  | optional sep =>
    constructor
    · rintro ⟨n, -, hmost, htimes⟩
      -- there is no round or just one
      have hn : n = 0 ∨ n = 1 := by
        have := hmost 1 rfl
        omega
      rcases hn with rfl | rfl
      · obtain ⟨rfl, rfl⟩ := htimes
        exact ⟨none, by simp [ModifierForm.Admits], rfl, rfl⟩
      · obtain ⟨_, _, _, _, rfl, rfl, hround, rfl, rfl⟩ := htimes
        obtain ⟨m, hm, rfl, rfl⟩ := reads_separated.mp hround
        refine ⟨some m, ?_, List.append_nil _, rfl⟩
        intro m' hm'
        cases hm'
        exact hm
    · rintro ⟨modifier, hadmits, rfl, rfl⟩
      cases modifier with
      | none => exact ⟨0, Nat.zero_le 0, by simp, rfl, rfl⟩
      | some m =>
        have hround : Reads (seq (literal sep.char) (capture i modifierPattern)) (sep.char :: m)
            [(i, m)] := reads_separated.mpr ⟨m, hadmits m rfl, rfl, rfl⟩
        exact ⟨1, Nat.zero_le 1, by simp, sep.char :: m, [], [(i, m)], [],
          (List.append_nil _).symm, rfl, hround, rfl, rfl⟩

/-! ### The whole format -/

/-- What the tokens of a layout stand for. -/
theorem Layout.slots_tokens (L : Layout) :
    L.tokens.map Token.slot = .year :: (L.date.fields.map (·.2.slot) ++
      (L.minor.toList.map (fun _ => Slot.minor) ++ L.micro.toList.map fun _ => Slot.micro)) := by
  simp only [Layout.tokens, Layout.fields, Layout.counters, List.map_cons, List.map_append,
    List.map_map, YearForm.slot_token]
  rfl

/-- No two tokens of a layout stand for the same number. -/
theorem Layout.nodup_slots (L : Layout) : (L.tokens.map Token.slot).Nodup := by
  -- the slots come in the order in which a format names them, with some left out
  have hdate : (L.date.fields.map (·.2.slot)).Sublist [.month, .week, .day] := by
    cases L.date with
    | none => exact List.nil_sublist _
    | month s padded =>
      have hmonth : [Slot.month].Sublist [.month, .week, .day] := by decide
      cases padded <;> exact hmonth
    | monthAndDay s padded s' padded' =>
      have hboth : [Slot.month, .day].Sublist [.month, .week, .day] := by decide
      cases padded <;> cases padded' <;> exact hboth
    | week s padded =>
      have hweek : [Slot.week].Sublist [.month, .week, .day] := by decide
      cases padded <;> exact hweek
  have hminor : (L.minor.toList.map fun _ => Slot.minor).Sublist [.minor] := by
    cases L.minor with
    | none => exact List.nil_sublist _
    | some s => exact List.Sublist.refl _
  have hmicro : (L.micro.toList.map fun _ => Slot.micro).Sublist [.micro] := by
    cases L.micro with
    | none => exact List.nil_sublist _
    | some s => exact List.Sublist.refl _
  have hsub := (hdate.append (hminor.append hmicro)).cons_cons .year
  rw [L.slots_tokens]
  exact hsub.nodup (by decide)

/-- The groups that a version leaves, the last one first. -/
def Layout.groups (L : Layout) (r : Reading) : Groups :=
  r.modifier.toList.map (L.tokens.length + 1, ·) ++ tokenGroups r.text 1 L.tokens

/-- The pattern of a documented format reads the versions that it spells, and no others. -/
theorem reads_layout {L : Layout} {version : List Char} {g : Groups} :
    Reads (sequence L.patterns) version g ↔ ∃ r, L.Spells r version ∧ g = L.groups r := by
  have hyear : ∀ r : Reading, r.text L.year.token.slot = r.text .year := by
    intro r
    rw [YearForm.slot_token]
  unfold Layout.patterns
  constructor
  · intro h
    -- the tokens read up to the end that is left for the modifier
    obtain ⟨text, s, g, hnumbers, rfl, rfl, hend⟩ := tokenPatterns_sound L.nodup_slots h
    obtain ⟨modifier, hmodifier, rfl, rfl⟩ := reads_modifierPatterns.mp hend
    refine ⟨⟨text, modifier⟩, ⟨hnumbers, hmodifier, ?_⟩, rfl⟩
    rw [← hyear]
  · rintro ⟨r, ⟨hnumbers, hmodifier, rfl⟩, rfl⟩
    have hend := reads_modifierPatterns (i := L.tokens.length + 1) |>.mpr
      ⟨r.modifier, hmodifier, rfl, rfl⟩
    have h := tokenPatterns_complete (i := 1) hnumbers hend
    rw [hyear] at h
    exact h

/-- All readings of a version leave the same groups. -/
theorem Layout.Spells.groups_eq {L : Layout} {r r' : Reading} {version : List Char}
    (h : L.Spells r version) (h' : L.Spells r' version) : L.groups r = L.groups r' := by
  obtain ⟨hnumbers, hmodifier⟩ := h.unique h'
  unfold Layout.groups
  rw [tokenGroups_congr hnumbers, hmodifier]

/-! ### Plain patterns -/

private theorem plain_tokenPatterns (i : Nat) (t : Token) (fs : List Field) :
    ∀ p ∈ tokenPatterns i t fs, Plain p := by
  induction fs generalizing i t with
  | nil =>
    intro p hp
    rw [List.mem_singleton.mp hp]
    exact plain_token t
  | cons f fs ih =>
    intro p hp
    rcases List.mem_cons.mp hp with rfl | hp
    · exact plain_token t
    · rcases List.mem_cons.mp hp with rfl | hp
      · exact trivial
      · exact ih (i + 1) f.2 p hp

private theorem plain_modifierPattern : Plain modifierPattern := by
  refine ⟨trivial, rfl, by simp, trivial, ?_⟩
  rintro g ⟨c, -, hnil, -⟩
  cases hnil

private theorem plain_modifierPatterns (i : Nat) (m : ModifierForm) :
    ∀ p ∈ m.patterns i, Plain p := by
  intro p hp
  cases m with
  | none => cases hp
  | required s =>
    rcases List.mem_cons.mp hp with rfl | hp
    · exact trivial
    · rw [List.mem_singleton.mp hp]
      exact plain_modifierPattern
  | optional s =>
    rw [List.mem_singleton.mp hp]
    refine ⟨rfl, by simp, ⟨trivial, plain_modifierPattern⟩, ?_⟩
    intro g hreads
    obtain ⟨m, -, hnil, -⟩ := reads_separated.mp hreads
    cases hnil

/-- The pattern of a layout is plain, so that the matcher finds what it reads. -/
theorem plain_layout (L : Layout) : ∀ p ∈ L.patterns, Plain p := by
  intro p hp
  rcases List.mem_append.mp hp with hp | hp
  · exact plain_tokenPatterns _ _ _ p hp
  · exact plain_modifierPatterns _ _ p hp

end ReleaseRunner.Version
