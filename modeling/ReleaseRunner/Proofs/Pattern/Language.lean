import ReleaseRunner.Pattern.Match

/-!
# The language of a pattern

`Reads p s g` says that the pattern can read the text `s` and capture the groups `g` on the
way, the last one first. It knows nothing of the order in which the alternatives are tried.
The main statements are that whatever the matcher finds for a plain pattern is read by it
(`run_sound`), and that it finds something wherever the pattern can read a text that leads on
to the goal (`run_complete`).

Plain patterns have no references, no conditions and no looks around. Their repetitions are
greedy, and their bodies never read the empty text, so that the limit on the rounds of the
matcher is never felt.
-/

namespace ReleaseRunner.Pattern

/-- Captured groups, the last one first. -/
abbrev Groups := List (Nat × List Char)

/-- So many texts one after the other, each of which is read. -/
def times (reads : List Char → Groups → Prop) : Nat → List Char → Groups → Prop
  | 0, s, g => s = [] ∧ g = []
  | n + 1, s, g =>
    ∃ s₁ s₂ g₁ g₂, s = s₁ ++ s₂ ∧ g = g₂ ++ g₁ ∧ reads s₁ g₁ ∧ times reads n s₂ g₂

/-- The texts that a plain pattern can read, with the groups it captures. -/
def Reads : Pattern → List Char → Groups → Prop
  | nothing, s, g => s = [] ∧ g = []
  | char set caseless ascii, s, g => ∃ c, set.holds caseless ascii c = true ∧ s = [c] ∧ g = []
  | seq a b, s, g =>
    ∃ s₁ s₂ g₁ g₂, s = s₁ ++ s₂ ∧ g = g₂ ++ g₁ ∧ Reads a s₁ g₁ ∧ Reads b s₂ g₂
  | either a b, s, g => Reads a s g ∨ Reads b s g
  | repeated body least most _, s, g =>
    ∃ n, least ≤ n ∧ (∀ m ∈ most, n ≤ m) ∧ times (Reads body) n s g
  | capture index body, s, g => ∃ g', g = (index, s) :: g' ∧ Reads body s g'
  | _, _, _ => False

/-- The patterns whose language `Reads` describes. -/
def Plain : Pattern → Prop
  | nothing => True
  | char .. => True
  | seq a b => Plain a ∧ Plain b
  | either a b => Plain a ∧ Plain b
  | repeated body least most appetite =>
    appetite = .greedy ∧ (∀ m ∈ most, least ≤ m) ∧ Plain body ∧ ∀ g, ¬Reads body [] g
  | capture _ body => Plain body
  | _ => False

/-- The place after a text was read and groups were captured. -/
def Place.past (place : Place) (s rest : List Char) (g : Groups) : Place :=
  ⟨s.reverse ++ place.before, rest, g ++ place.groups⟩

@[simp] theorem Place.past_after (place : Place) (s rest : List Char) (g : Groups) :
    (place.past s rest g).after = rest := rfl

theorem Place.past_past (place : Place) (s s' rest rest' : List Char) (g g' : Groups) :
    (place.past s rest g).past s' rest' g' = place.past (s ++ s') rest' (g' ++ g) := by
  simp [Place.past]

theorem Place.past_nil (place : Place) : place.past [] place.after [] = place := rfl

/-! ## What the matcher finds -/

/-- What a step of the matcher finds is read before the goal is reached. -/
def Sound (step : Goal → Goal) (reads : List Char → Groups → Prop) : Prop :=
  ∀ goal place found, step goal place = some found →
    ∃ s rest g, place.after = s ++ rest ∧ reads s g ∧ goal (place.past s rest g) = some found

/-- A step of the matcher finds something wherever a text is read that leads on to the goal. -/
def Complete (step : Goal → Goal) (reads : List Char → Groups → Prop) : Prop :=
  ∀ goal place s rest g, place.after = s ++ rest → reads s g →
    (goal (place.past s rest g)).isSome → (step goal place).isSome

section
variable {step : Goal → Goal} {reads : List Char → Groups → Prop}

theorem times_append {m n : Nat} {s s' : List Char} {g g' : Groups} (h : times reads m s g)
    (h' : times reads n s' g') : times reads (m + n) (s ++ s') (g' ++ g) := by
  induction m generalizing s g with
  | zero =>
    obtain ⟨rfl, rfl⟩ := h
    rw [Nat.zero_add, List.nil_append, List.append_nil]
    exact h'
  | succ m ih =>
    obtain ⟨s₁, s₂, g₁, g₂, rfl, rfl, hfirst, hrest⟩ := h
    rw [Nat.succ_add]
    exact ⟨s₁, s₂ ++ s', g₁, g' ++ g₂, List.append_assoc _ _ _, (List.append_assoc _ _ _).symm,
      hfirst, ih hrest⟩

theorem times_split {m n : Nat} {s : List Char} {g : Groups} (h : times reads (m + n) s g) :
    ∃ s₁ s₂ g₁ g₂, s = s₁ ++ s₂ ∧ g = g₂ ++ g₁ ∧ times reads m s₁ g₁ ∧ times reads n s₂ g₂ := by
  induction m generalizing s g with
  | zero =>
    rw [Nat.zero_add] at h
    exact ⟨[], s, [], g, rfl, (List.append_nil g).symm, ⟨rfl, rfl⟩, h⟩
  | succ m ih =>
    rw [Nat.succ_add] at h
    obtain ⟨s₁, _, g₁, _, rfl, rfl, hfirst, hrest⟩ := h
    obtain ⟨s₂, s₃, g₂, g₃, rfl, rfl, hmiddle, hlast⟩ := ih hrest
    exact ⟨s₁ ++ s₂, s₃, g₂ ++ g₁, g₃, (List.append_assoc _ _ _).symm, List.append_assoc _ _ _,
      ⟨s₁, s₂, g₁, g₂, rfl, rfl, hfirst, hmiddle⟩, hlast⟩

/-- Where no round is empty, there are no more rounds than characters. -/
theorem length_of_times (hempty : ∀ g, ¬reads [] g) {n : Nat} {s : List Char} {g : Groups}
    (h : times reads n s g) : n ≤ s.length := by
  induction n generalizing s g with
  | zero => exact Nat.zero_le _
  | succ n ih =>
    obtain ⟨s₁, s₂, g₁, g₂, rfl, -, hfirst, hrest⟩ := h
    have hlong := ih hrest
    cases s₁ with
    | nil => exact absurd hfirst (hempty g₁)
    | cons c s₁ =>
      simp only [List.cons_append, List.length_cons, List.length_append]
      omega

theorem sound_rounds (h : Sound step reads) : ∀ n, Sound (rounds step n) (times reads n) := by
  intro n
  induction n with
  | zero => exact fun goal place found hfound => ⟨[], place.after, [], rfl, ⟨rfl, rfl⟩, hfound⟩
  | succ n ih =>
    intro goal place found hfound
    obtain ⟨s₁, _, g₁, hafter, hfirst, hrest⟩ := h _ _ _ hfound
    obtain ⟨s₂, rest, g₂, rfl, hmore, hgoal⟩ := ih _ _ _ hrest
    rw [Place.past_past] at hgoal
    refine ⟨s₁ ++ s₂, rest, g₂ ++ g₁, ?_, ⟨s₁, s₂, g₁, g₂, rfl, rfl, hfirst, hmore⟩, hgoal⟩
    rw [hafter, List.append_assoc]

theorem complete_rounds (h : Complete step reads) :
    ∀ n, Complete (rounds step n) (times reads n) := by
  intro n
  induction n with
  | zero =>
    rintro goal place s rest g hafter ⟨rfl, rfl⟩ hgoal
    rw [List.nil_append] at hafter
    rw [← hafter, Place.past_nil] at hgoal
    exact hgoal
  | succ n ih =>
    rintro goal place _ rest _ hafter ⟨s₁, s₂, g₁, g₂, rfl, rfl, hfirst, hrest⟩ hgoal
    rw [List.append_assoc] at hafter
    refine h _ place s₁ (s₂ ++ rest) g₁ hafter hfirst ?_
    refine ih goal _ s₂ rest g₂ rfl hrest ?_
    rw [Place.past_past]
    exact hgoal

/-- A limit on the rounds leaves room for the first of several. -/
private theorem roomFor_of_le {most : Option Nat} {n : Nat} (h : ∀ m ∈ most, n + 1 ≤ m) :
    roomFor most = true := by
  unfold roomFor
  cases most with
  | none => rfl
  | some m =>
    have := h m rfl
    simp only [Option.all_some, decide_eq_true_eq]
    omega

private theorem le_of_mem_pred {most : Option Nat} {n : Nat} (h : ∀ m ∈ most, n + 1 ≤ m) :
    ∀ m ∈ most.map (· - 1), n ≤ m := by
  intro m hm
  obtain ⟨m', hm', rfl⟩ := Option.map_eq_some_iff.mp hm
  have := h m' hm'
  omega

theorem sound_greedyRounds (h : Sound step reads) : ∀ fuel most last,
    Sound (greedyRounds step fuel most last)
      (fun s g => ∃ n, (∀ m ∈ most, n ≤ m) ∧ times reads n s g) := by
  intro fuel
  induction fuel with
  | zero =>
    intro most last goal place found hfound
    exact ⟨[], place.after, [], rfl, ⟨0, fun m _ => Nat.zero_le m, rfl, rfl⟩, hfound⟩
  | succ fuel ih =>
    intro most last goal place found hfound
    have hstay : goal place = some found → ∃ s rest g, place.after = s ++ rest ∧
        (∃ n, (∀ m ∈ most, n ≤ m) ∧ times reads n s g) ∧
        goal (place.past s rest g) = some found :=
      fun hgoal => ⟨[], place.after, [], rfl, ⟨0, fun m _ => Nat.zero_le m, rfl, rfl⟩, hgoal⟩
    unfold greedyRounds at hfound
    dsimp only at hfound
    split at hfound
    · next hroom =>
      split at hfound
      · next found' hround =>
        cases hfound
        obtain ⟨s₁, _, g₁, hafter, hfirst, hrest⟩ := h _ _ _ hround
        obtain ⟨s₂, rest, g₂, rfl, ⟨n, hn, hmore⟩, hgoal⟩ := ih _ _ _ _ _ hrest
        rw [Place.past_past] at hgoal
        refine ⟨s₁ ++ s₂, rest, g₂ ++ g₁, ?_, ⟨n + 1, ?_, s₁, s₂, g₁, g₂, rfl, rfl, hfirst, hmore⟩,
          hgoal⟩
        · rw [hafter, List.append_assoc]
        · intro m hm
          subst hm
          have hpos := (Bool.and_eq_true_iff.mp hroom).1
          have := hn (m - 1) rfl
          simp only [roomFor, Option.all_some, decide_eq_true_eq] at hpos
          omega
      · exact hstay hfound
    · exact hstay hfound

/-- All rounds that may be needed fit into the fuel, and none of them stays in place. -/
theorem complete_greedyRounds (h : Complete step reads) (hempty : ∀ g, ¬reads [] g) :
    ∀ (n fuel : Nat) (most last : Option Nat) (goal : Goal) (place : Place) (s rest : List Char)
      (g : Groups), place.after = s ++ rest → n < fuel → (∀ m ∈ most, n ≤ m) →
      last ≠ some place.after.length → times reads n s g →
      (goal (place.past s rest g)).isSome →
      (greedyRounds step fuel most last goal place).isSome := by
  intro n
  induction n with
  | zero =>
    rintro fuel most last goal place s rest g hafter hfuel - - ⟨rfl, rfl⟩ hgoal
    rw [List.nil_append] at hafter
    rw [← hafter, Place.past_nil] at hgoal
    cases fuel with
    | zero => exact hgoal
    | succ fuel =>
      unfold greedyRounds
      dsimp only
      split
      · split
        · rfl
        · exact hgoal
      · exact hgoal
  | succ n ih =>
    rintro fuel most last goal place _ rest _ hafter hfuel hmost hlast
      ⟨s₁, s₂, g₁, g₂, rfl, rfl, hfirst, hrest⟩ hgoal
    rw [List.append_assoc] at hafter
    obtain ⟨fuel, rfl⟩ : ∃ k, fuel = k + 1 := ⟨fuel - 1, by omega⟩
    have hmoved : some place.after.length ≠ some (place.past s₁ (s₂ ++ rest) g₁).after.length := by
      intro hsame
      rw [Place.past_after, hafter, Option.some.injEq] at hsame
      cases s₁ with
      | nil => exact hempty g₁ hfirst
      | cons c s₁ =>
        simp only [List.cons_append, List.length_cons, List.length_append] at hsame
        omega
    have hround : (step (greedyRounds step fuel (most.map (· - 1)) (some place.after.length) goal)
        place).isSome := by
      refine h _ place s₁ (s₂ ++ rest) g₁ hafter hfirst ?_
      refine ih fuel _ _ goal _ s₂ rest g₂ rfl (by omega) (le_of_mem_pred hmost) hmoved hrest ?_
      rw [Place.past_past]
      exact hgoal
    unfold greedyRounds
    dsimp only
    rw [roomFor_of_le hmost, bne_iff_ne.mpr hlast, Bool.and_self, if_pos rfl]
    split
    · rfl
    · next hnone =>
      rw [hnone] at hround
      cases hround

end

/-! ## Patterns -/

theorem sound_char (set : CharSet) (caseless ascii : Bool) :
    Sound (run (char set caseless ascii)) (Reads (char set caseless ascii)) := by
  intro goal place found hfound
  obtain ⟨before, after, groups⟩ := place
  cases after with
  | nil => cases hfound
  | cons c rest =>
    unfold run Place.step? at hfound
    dsimp only at hfound
    split at hfound
    · next hholds => exact ⟨[c], rest, [], rfl, ⟨c, hholds, rfl, rfl⟩, hfound⟩
    · cases hfound

theorem complete_char (set : CharSet) (caseless ascii : Bool) :
    Complete (run (char set caseless ascii)) (Reads (char set caseless ascii)) := by
  rintro goal ⟨before, after, groups⟩ _ rest _ hafter ⟨c, hholds, rfl, rfl⟩ hgoal
  have hafter : after = c :: rest := hafter
  subst hafter
  unfold run Place.step?
  dsimp only
  rw [if_pos hholds]
  exact hgoal

/-- The group that is captured is what was read. -/
private theorem capture_past (place : Place) (s rest : List Char) (g : Groups) (index : Nat) :
    (place.past s rest g).capture place index = place.past s rest ((index, s) :: g) := by
  have hlength : (s.reverse ++ place.before).length - place.before.length = s.reverse.length := by
    rw [List.length_append]
    omega
  unfold Place.past Place.capture
  dsimp only
  rw [hlength, List.take_left, List.reverse_reverse]
  rfl

/-- Whatever the matcher finds for a plain pattern is read by it. -/
theorem run_sound : ∀ p : Pattern, Plain p → Sound (run p) (Reads p) := by
  intro p
  induction p with
  | nothing => exact fun _ goal place found h => ⟨[], place.after, [], rfl, ⟨rfl, rfl⟩, h⟩
  | char set caseless ascii => exact fun _ => sound_char set caseless ascii
  | seq a b iha ihb =>
    rintro ⟨ha, hb⟩ goal place found hfound
    obtain ⟨s₁, _, g₁, hafter, hfirst, hrest⟩ := iha ha _ _ _ hfound
    obtain ⟨s₂, rest, g₂, rfl, hsecond, hgoal⟩ := ihb hb _ _ _ hrest
    rw [Place.past_past] at hgoal
    refine ⟨s₁ ++ s₂, rest, g₂ ++ g₁, ?_, ⟨s₁, s₂, g₁, g₂, rfl, rfl, hfirst, hsecond⟩, hgoal⟩
    rw [hafter, List.append_assoc]
  | either a b iha ihb =>
    rintro ⟨ha, hb⟩ goal place found hfound
    unfold run at hfound
    split at hfound
    · next found' hleft =>
      cases hfound
      obtain ⟨s, rest, g, hafter, hreads, hgoal⟩ := iha ha _ _ _ hleft
      exact ⟨s, rest, g, hafter, .inl hreads, hgoal⟩
    · obtain ⟨s, rest, g, hafter, hreads, hgoal⟩ := ihb hb _ _ _ hfound
      exact ⟨s, rest, g, hafter, .inr hreads, hgoal⟩
  | repeated body least most appetite ih =>
    rintro ⟨rfl, hlimits, hbody, -⟩ goal place found hfound
    obtain ⟨s₁, _, g₁, hafter, hleast, hrest⟩ := sound_rounds (ih hbody) least _ _ _ hfound
    obtain ⟨s₂, rest, g₂, rfl, ⟨n, hn, hmore⟩, hgoal⟩ :=
      sound_greedyRounds (ih hbody) _ _ _ _ _ _ hrest
    rw [Place.past_past] at hgoal
    refine ⟨s₁ ++ s₂, rest, g₂ ++ g₁, ?_, ⟨least + n, Nat.le_add_right _ _, ?_,
      times_append hleast hmore⟩, hgoal⟩
    · rw [hafter, List.append_assoc]
    · intro m hm
      subst hm
      have hroom := hlimits m rfl
      have := hn (m - least) rfl
      omega
  | capture index body ih =>
    intro hbody goal place found hfound
    obtain ⟨s, rest, g, hafter, hreads, hgoal⟩ := ih hbody _ _ _ hfound
    rw [capture_past] at hgoal
    exact ⟨s, rest, (index, s) :: g, hafter, ⟨g, rfl, hreads⟩, hgoal⟩
  | _ => exact fun h => h.elim

/-- The matcher finds something wherever a plain pattern can read a text that leads on to the
goal. -/
theorem run_complete : ∀ p : Pattern, Plain p → Complete (run p) (Reads p) := by
  intro p
  induction p with
  | nothing =>
    rintro - goal place s rest g hafter ⟨rfl, rfl⟩ hgoal
    rw [List.nil_append] at hafter
    rw [← hafter, Place.past_nil] at hgoal
    exact hgoal
  | char set caseless ascii => exact fun _ => complete_char set caseless ascii
  | seq a b iha ihb =>
    rintro ⟨ha, hb⟩ goal place _ rest _ hafter ⟨s₁, s₂, g₁, g₂, rfl, rfl, hfirst, hsecond⟩ hgoal
    rw [List.append_assoc] at hafter
    refine iha ha _ place s₁ (s₂ ++ rest) g₁ hafter hfirst ?_
    refine ihb hb goal _ s₂ rest g₂ rfl hsecond ?_
    rw [Place.past_past]
    exact hgoal
  | either a b iha ihb =>
    rintro ⟨ha, hb⟩ goal place s rest g hafter hreads hgoal
    unfold run
    rcases hreads with hleft | hright
    · have hfound := iha ha goal place s rest g hafter hleft hgoal
      obtain ⟨found, hfound⟩ := Option.isSome_iff_exists.mp hfound
      rw [hfound]
      rfl
    · split
      · rfl
      · exact ihb hb goal place s rest g hafter hright hgoal
  | repeated body least most appetite ih =>
    rintro ⟨rfl, hlimits, hbody, hempty⟩ goal place s rest g hafter ⟨n, hleast, hmost, htimes⟩ hgoal
    obtain ⟨k, rfl⟩ : ∃ k, n = least + k := ⟨n - least, by omega⟩
    obtain ⟨s₁, s₂, g₁, g₂, rfl, rfl, hfirst, hrest⟩ := times_split htimes
    rw [List.append_assoc] at hafter
    refine complete_rounds (ih hbody) least _ place s₁ (s₂ ++ rest) g₁ hafter hfirst ?_
    -- the rounds beyond the required ones fit into what is left of the text
    have hfuel : k < place.after.length + 2 := by
      have hlong := length_of_times hempty hrest
      rw [hafter]
      simp only [List.length_append]
      omega
    refine complete_greedyRounds (ih hbody) hempty k _ _ _ goal _ s₂ rest g₂ rfl hfuel ?_
      (by simp) hrest ?_
    · intro m hm
      obtain ⟨m', hm', rfl⟩ := Option.map_eq_some_iff.mp hm
      have := hmost m' hm'
      omega
    · rw [Place.past_past]
      exact hgoal
  | capture index body ih =>
    rintro hbody goal place s rest _ hafter ⟨g, rfl, hreads⟩ hgoal
    refine ih hbody _ place s rest g hafter hreads ?_
    rw [capture_past]
    exact hgoal
  | _ => exact fun h => h.elim

/-! ## Sequences -/

theorem run_sequence_cons (p : Pattern) (ps : List Pattern) (goal : Goal) :
    run (sequence (p :: ps)) goal = run p (run (sequence ps) goal) := by
  cases ps <;> rfl

theorem run_sequence_append (ps qs : List Pattern) (goal : Goal) :
    run (sequence (ps ++ qs)) goal = run (sequence ps) (run (sequence qs) goal) := by
  induction ps with
  | nil => rfl
  | cons p ps ih => rw [List.cons_append, run_sequence_cons, run_sequence_cons, ih]

theorem reads_sequence_cons {p : Pattern} {ps : List Pattern} {s : List Char} {g : Groups} :
    Reads (sequence (p :: ps)) s g ↔
      ∃ s₁ s₂ g₁ g₂, s = s₁ ++ s₂ ∧ g = g₂ ++ g₁ ∧ Reads p s₁ g₁ ∧ Reads (sequence ps) s₂ g₂ := by
  cases ps with
  | nil =>
    constructor
    · intro h
      exact ⟨s, [], g, [], (List.append_nil s).symm, rfl, h, rfl, rfl⟩
    · rintro ⟨s₁, s₂, g₁, g₂, rfl, rfl, h, rfl, rfl⟩
      rw [List.append_nil]
      exact h
  | cons q qs => exact Iff.rfl

theorem plain_sequence {ps : List Pattern} (h : ∀ p ∈ ps, Plain p) : Plain (sequence ps) := by
  induction ps with
  | nil => exact trivial
  | cons p ps ih =>
    have hfirst := h p List.mem_cons_self
    have hrest := ih fun q hq => h q (List.mem_cons_of_mem _ hq)
    cases ps with
    | nil => exact hfirst
    | cons q qs => exact ⟨hfirst, hrest⟩

/-! ## Whole texts -/

/-- The text of a group among those captured. -/
def Groups.text? (g : Groups) (index : Nat) : Option (List Char) :=
  (g.find? (·.1 == index)).map (·.2)

/-- A pattern that is held to the whole of a text, but for a line feed at its end. -/
def wholeText (ps : List Pattern) : Pattern :=
  sequence ([anchor .textStart] ++ ps ++ [anchor .beforeLastBreak])

/-- The goal of a pattern that is held to the end of the text. -/
private def atEnd : Goal := fun place =>
  if Anchor.beforeLastBreak.holds place then some place else none

private theorem run_wholeText (ps : List Pattern) (text : List Char) :
    run (wholeText ps) some ⟨[], text, []⟩ = run (sequence ps) atEnd ⟨[], text, []⟩ := by
  unfold wholeText
  rw [run_sequence_append, run_sequence_append]
  rfl

section
variable {ps : List Pattern} {text : List Char}

/-- What is captured where the whole text is matched comes from a reading of the text. -/
theorem match?_sound (hplain : ∀ p ∈ ps, Plain p) (hend : ∀ s, text ≠ s ++ ['\n']) {count : Nat}
    {groups : List (Option (List Char))} (h : (wholeText ps).match? count text = some groups) :
    ∃ g, Reads (sequence ps) text g ∧ groups = (List.range count).map fun i => g.text? (i + 1) := by
  unfold match? at h
  rw [run_wholeText] at h
  obtain ⟨found, hfound, rfl⟩ := Option.map_eq_some_iff.mp h
  obtain ⟨s, rest, g, hafter, hreads, hgoal⟩ := run_sound _ (plain_sequence hplain) _ _ _ hfound
  have hafter : text = s ++ rest := hafter
  unfold atEnd at hgoal
  split at hgoal
  · next hholds =>
    have hrest : rest = [] := by
      unfold Anchor.holds at hholds
      rw [Place.past_after, Bool.or_eq_true, List.isEmpty_iff, beq_iff_eq] at hholds
      rcases hholds with hnil | hbreak
      · exact hnil
      · -- the text would end with a line feed
        rw [hbreak] at hafter
        exact absurd hafter (hend s)
    rw [hrest, List.append_nil] at hafter
    rw [hafter]
    refine ⟨g, hreads, ?_⟩
    cases hgoal
    simp [Place.group?, Groups.text?, Place.past]
  · cases hgoal

/-- A text that the patterns can read one after the other is matched. -/
theorem match?_complete (hplain : ∀ p ∈ ps, Plain p) {g : Groups}
    (h : Reads (sequence ps) text g) (count : Nat) :
    ((wholeText ps).match? count text).isSome := by
  unfold match?
  rw [run_wholeText, Option.isSome_map]
  exact run_complete _ (plain_sequence hplain) _ ⟨[], text, []⟩ text [] g (List.append_nil _).symm
    h rfl

end

end ReleaseRunner.Pattern
