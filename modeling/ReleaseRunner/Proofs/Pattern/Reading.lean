import ReleaseRunner.Proofs.Pattern.Numbering

/-!
# Reading on

The reader is bounded by a count of its calls. Three of them for each character are enough, and
beyond that the count makes no difference (`steady`). So one may speak of what is read from a place
on (`partsFrom`), and go through a text one part after the other without a count.
-/

namespace ReleaseRunner.Pattern

variable {α β : Type}

/-! ## Steps that agree -/

/-- The two steps do the same wherever there are no more than so many characters left. -/
def Agree (n : Nat) (x y : Step α) : Prop :=
  ∀ p : Progress, p.rest.length ≤ n → x p = y p

namespace Agree

variable {n : Nat} {x y : Step α} {f g : α → Step β} {Q : α → List Nat → Prop}

theorem refl (x : Step α) : Agree n x x := fun _ _ => rfl

/-- Steps that agree go on alike, since the first of them does not go back in the text. -/
theorem bind (h : Agree n x y) (hx : Counts x Q) (hf : ∀ a, Agree n (f a) (g a)) :
    Agree n (x >>= f) (y >>= g) := by
  intro p hp
  rw [step_bind, step_bind, ← h p hp]
  rcases hr : x p with e | ⟨a, q⟩
  · rfl
  · exact hf a q (Nat.le_trans (hx p a q hr).1 hp)

theorem after {P : α → Prop} (hx : Quiet x P) (hf : ∀ a, Agree n (f a) (g a)) :
    Agree n (x >>= f) (x >>= g) :=
  bind (refl x) hx hf

theorem get_bind {f g : Progress → Step β} (hf : ∀ p, Agree n (f p) (g p)) :
    Agree n ((get : Step Progress) >>= f) ((get : Step Progress) >>= g) :=
  fun p hp => hf p p hp

theorem adjust {h : Progress → Progress} {f g : Progress → Step β}
    (hrest : ∀ p, (h p).rest = p.rest) (hf : ∀ p, Agree n (f p) (g p)) :
    Agree n ((get : Step Progress) >>= fun p => set (h p) >>= fun _ => f p)
      ((get : Step Progress) >>= fun p => set (h p) >>= fun _ => g p) := by
  intro p hp
  exact hf p (h p) (by rwa [hrest])

theorem ite {c : Prop} [Decidable c] {x' y' : Step α} (h : c → Agree n x y)
    (h' : ¬c → Agree n x' y') : Agree n (if c then x else x') (if c then y else y') := by
  split
  · next hc => exact h hc
  · next hc => exact h' hc

theorem guarded {c : Prop} [Decidable c] {e : Error} {f g : Unit → Step β}
    (h : Agree n (f ()) (g ())) :
    Agree n (if c then (throw e : Step Unit) >>= f else f ())
      (if c then (throw e : Step Unit) >>= g else g ()) :=
  ite (fun _ => fun _ _ => rfl) fun _ => h

theorem sometimes {c : Prop} [Decidable c] {x : Step Unit} {P : Unit → Prop} {f g : Unit → Step β}
    (hx : Quiet x P) (h : ∀ r, Agree n (f r) (g r)) :
    Agree n (if c then x >>= f else f ()) (if c then x >>= g else g ()) :=
  ite (fun _ => after hx h) fun _ => h ()

/-- Where there is a next character, it is one of those that are left. -/
theorem peek {f g : Option Char → Step β} (hnone : Agree n (f none) (g none))
    (hsome : ∀ c m, n = m + 1 → Agree n (f (some c)) (g (some c))) :
    Agree n (Pattern.peek >>= f) (Pattern.peek >>= g) := by
  intro p hp
  show f p.rest.head? p = g p.rest.head? p
  cases hrest : p.rest with
  | nil => exact hnone p hp
  | cons c rest =>
    rw [hrest, List.length_cons] at hp
    obtain ⟨m, rfl⟩ := Nat.exists_eq_add_of_le hp
    refine hsome c (rest.length + m) (by omega) p ?_
    rw [hrest, List.length_cons]
    exact hp

/-- After a character was taken there is one less left. -/
theorem take? {f g : Unit → Step β} (h : ∀ r, Agree n (f r) (g r)) :
    Agree (n + 1) (discard Pattern.take? >>= f) (discard Pattern.take? >>= g) := by
  intro p hp
  rw [step_bind, step_bind, discard_take?_eq]
  refine h () _ ?_
  rw [List.length_tail]
  omega

/-- After the character was found that was looked for there is one less left. -/
theorem accept {c : Char} {f g : Bool → Step β}
    (hfound : ∀ m, n = m + 1 → Agree m (f true) (g true)) (hnot : Agree n (f false) (g false)) :
    Agree n (Pattern.accept c >>= f) (Pattern.accept c >>= g) := by
  intro p hp
  rw [step_bind, step_bind, accept_eq]
  by_cases hhead : p.rest.head? = some c
  · rw [if_pos hhead]
    cases hrest : p.rest with
    | nil =>
      rw [hrest] at hhead
      cases hhead
    | cons d rest =>
      rw [hrest, List.length_cons] at hp
      obtain ⟨m, rfl⟩ := Nat.exists_eq_add_of_le hp
      exact hfound (rest.length + m) (by omega) _ (Nat.le_add_right _ _)
  · rw [if_neg hhead]
    exact hnot p hp

end Agree

/-! ## The count of calls -/

/-- So many calls are enough: with more of them the reader does the same. -/
structure Steady (fuel : Nat) : Prop where
  alternatives : ∀ {fuel' n : Nat}, fuel ≤ fuel' → 3 * n + 2 ≤ fuel → ∀ mode parts,
    Agree n (alternatives fuel mode parts) (alternatives fuel' mode parts)
  parts : ∀ {fuel' n : Nat}, fuel ≤ fuel' → 3 * n + 1 ≤ fuel → ∀ mode parts,
    Agree n (parts? fuel mode parts) (parts? fuel' mode parts)
  group : ∀ {fuel' n : Nat}, fuel ≤ fuel' → 3 * n + 3 ≤ fuel → ∀ mode,
    Agree n (group? fuel mode) (group? fuel' mode)

namespace Steady

variable {fuel fuel' n : Nat} (ih : Steady fuel) (hfuel : fuel ≤ fuel')
include ih hfuel

theorem alternatives_succ (h : 3 * n + 2 ≤ fuel + 1) (mode : Mode) (parts : List Part) :
    Agree n (Pattern.alternatives (fuel + 1) mode parts)
      (Pattern.alternatives (fuel' + 1) mode parts) := by
  rw [Pattern.alternatives, Pattern.alternatives]
  refine .bind (ih.parts hfuel (by omega) mode parts) ((numbers fuel).parts mode parts) fun _ => ?_
  refine .accept (fun m hm => ?_) (.refl _)
  exact .bind (ih.alternatives hfuel (by omega) mode []) ((numbers fuel).alternatives mode [])
    fun _ => .refl _

theorem parts_succ (h : 3 * n + 1 ≤ fuel + 1) (mode : Mode) (parts : List Part) :
    Agree n (parts? (fuel + 1) mode parts) (parts? (fuel' + 1) mode parts) := by
  rw [parts?, parts?]
  refine .peek (.refl _) fun c m hm => ?_
  subst hm
  have hon : ∀ parts, Agree m (parts? fuel mode parts) (parts? fuel' mode parts) :=
    ih.parts hfuel (by omega) mode
  refine .ite (fun _ => .refl _) fun _ => .take? fun _ => ?_
  refine .ite (fun _ => hon _) fun _ => .ite (fun _ => ?_) fun _ => .ite (fun _ => ?_) fun _ =>
    .ite (fun _ => ?_) fun _ => .ite (fun _ => hon _) fun _ => .ite (fun _ => hon _) fun _ =>
    .ite (fun _ => hon _) fun _ => .ite (fun _ => ?_) fun _ => .ite (fun _ => ?_) fun _ => hon _
  · exact .after (.discard (.takeWhile _ _)) fun _ => .after (.discard .take?) fun _ => hon _
  · exact .after (.escape mode) fun _ => hon _
  · exact .after (.bracketClass mode) fun _ => hon _
  · refine .bind (ih.group hfuel (by omega) mode) ((numbers fuel).group mode) fun part => ?_
    split
    · exact hon _
    · exact hon _
  · refine .after (.markLimits? _) fun limits => ?_
    split
    · exact .after (.repeatLast _ _) fun _ => hon _
    · exact hon _

theorem group_succ (h : 3 * n + 3 ≤ fuel + 1) (mode : Mode) :
    Agree n (group? (fuel + 1) mode) (group? (fuel' + 1) mode) := by
  -- the body of a group is read alike, and what comes after it is the same
  have hbody : ∀ mode {f : Pattern → Step (Option Part)},
      Agree n (Pattern.alternatives fuel mode [] >>= f)
        (Pattern.alternatives fuel' mode [] >>= f) :=
    fun mode _ => .bind (ih.alternatives hfuel (by omega) mode [])
      ((numbers fuel).alternatives mode []) fun _ => .refl _
  have hpart : Agree n (parts? fuel mode []) (parts? fuel' mode []) :=
    ih.parts hfuel (by omega) mode []
  rw [group?, group?]
  refine .after (.accept '?') fun _ => .ite (fun _ => ?_) fun _ =>
    .bind (.refl _) (.openGroup none) fun _ => hbody mode
  refine .after .take fun c => .ite (fun _ => hbody mode) fun _ => .ite (fun _ => hbody mode)
    fun _ => .ite (fun _ => hbody mode) fun _ => .ite (fun _ => ?_) fun _ =>
    .ite (fun _ => .refl _) fun _ => .ite (fun _ => ?_) fun _ => .ite (fun _ => ?_) fun _ => ?_
  · exact .after .take fun _ => .guarded (.adjust (fun _ => rfl) fun _ => hbody mode)
  · refine .after .take fun _ => .ite (fun _ => ?_) fun _ => .refl _
    exact .after (.takeUntil _) fun _ => .guarded
      (.bind (.refl _) (.openGroup _) fun _ => hbody mode)
  · refine .after (.takeUntil _) fun name => .after (.conditionGroup name) fun index =>
      .get_bind fun p => .sometimes (.checkReference index) fun _ => ?_
    refine .bind hpart ((numbers fuel).parts mode []) fun _ => .after (.accept '|') fun _ => ?_
    exact .ite (fun _ => .bind hpart ((numbers fuel).parts mode []) fun _ => .refl _)
      fun _ => .refl _
  · exact .after (.groupMode mode c) fun mode => hbody mode

end Steady

/-- Three calls for each character are enough. -/
theorem steady (fuel : Nat) : Steady fuel := by
  induction fuel with
  | zero => exact ⟨fun _ h => by omega, fun _ h => by omega, fun _ h => by omega⟩
  | succ fuel ih =>
    constructor
    · intro fuel' n hfuel h
      obtain ⟨fuel', rfl⟩ : ∃ m, fuel' = m + 1 := ⟨fuel' - 1, by omega⟩
      exact ih.alternatives_succ (by omega) h
    · intro fuel' n hfuel h
      obtain ⟨fuel', rfl⟩ : ∃ m, fuel' = m + 1 := ⟨fuel' - 1, by omega⟩
      exact ih.parts_succ (by omega) h
    · intro fuel' n hfuel h
      obtain ⟨fuel', rfl⟩ : ∃ m, fuel' = m + 1 := ⟨fuel' - 1, by omega⟩
      exact ih.group_succ (by omega) h

/-! ## Reading from a place on -/

/-- What is read from a place on up to the end of the sequence. -/
def partsFrom (parts : List Part) : Step Pattern := fun p =>
  parts? (3 * p.rest.length + 1) {} parts p

section
variable {parts parts' : List Part} {p q : Progress}

theorem parts?_eq_partsFrom {fuel : Nat} (h : 3 * p.rest.length + 1 ≤ fuel) :
    parts? fuel {} parts p = partsFrom parts p :=
  ((steady _).parts h (Nat.le_refl _) {} parts p (Nat.le_refl _)).symm

/-- The reader may be run for a call where there are calls enough. -/
theorem partsFrom_step (calls : Nat)
    (h : ∀ fuel, calls ≤ fuel → parts? (fuel + 1) {} parts p = parts? fuel {} parts' q) :
    partsFrom parts p = partsFrom parts' q := by
  have hstep := h (calls + 3 * p.rest.length + 3 * q.rest.length + 1) (by omega)
  rwa [parts?_eq_partsFrom (by omega), parts?_eq_partsFrom (by omega)] at hstep

theorem alternatives_succ (fuel : Nat) (mode : Mode) (parts : List Part) :
    alternatives (fuel + 1) mode parts =
      parts? fuel mode parts >>= fun first => accept '|' >>= fun found =>
        if found then alternatives fuel mode [] >>= fun other => pure (either first other)
        else pure first := by
  rw [alternatives]

/-- What begins alike goes on alike, whether or not there are further alternatives. -/
theorem alternatives_congr (h : partsFrom parts p = partsFrom parts' q)
    (hrest : q.rest.length ≤ p.rest.length) :
    alternatives (3 * p.rest.length + 3) {} parts p =
      alternatives (3 * q.rest.length + 3) {} parts' q := by
  rw [alternatives_succ (3 * p.rest.length + 2), alternatives_succ (3 * q.rest.length + 2),
    step_bind, step_bind, parts?_eq_partsFrom (by omega), parts?_eq_partsFrom (by omega), h]
  rcases hr : partsFrom parts' q with e | ⟨first, r⟩
  · rfl
  · have hless := ((numbers _).parts {} parts' q first r hr).1
    dsimp only
    symm
    refine Agree.accept (fun m hm => ?_) ?_ r hless
    · exact .bind ((steady _).alternatives (by omega) (by omega) {} [])
        ((numbers _).alternatives {} []) fun _ => .refl _
    · exact .refl _

/-! ## One part after the other -/

variable {rest : List Char}

/-- The start of a text. -/
theorem partsFrom_start :
    partsFrom parts { p with rest := '^' :: rest } =
      partsFrom (⟨anchor .textStart, .anchor⟩ :: parts) { p with rest := rest } := by
  refine partsFrom_step 0 fun fuel _ => ?_
  rw [parts?]
  rfl

/-- The characters that do not stand for themselves. -/
def marks : List Char := ['|', ')', '\\', '[', '.', '^', '$', '(', '?', '*', '+', '\x7b']

theorem partsFrom_literal {c : Char} (h : c ∉ marks) :
    partsFrom parts { p with rest := c :: rest } =
      partsFrom (⟨literal c, .yes⟩ :: parts) { p with rest := rest } := by
  refine partsFrom_step 0 fun fuel _ => ?_
  have hne : ∀ d ∈ marks, (c == d) = false := fun d hd =>
    beq_eq_false_iff_ne.mpr fun hsame => h (hsame ▸ hd)
  simp only [marks, List.forall_mem_cons] at hne
  have hpeek : peek { p with rest := c :: rest } = .ok (some c, { p with rest := c :: rest }) := rfl
  rw [parts?, step_bind, hpeek]
  simp only [hne, Bool.or_self, Bool.false_and, Bool.false_eq_true, if_false]
  rw [step_bind, discard_take?_eq]
  rfl

/-- A point that is escaped. -/
theorem partsFrom_point :
    partsFrom parts { p with rest := '\\' :: '.' :: rest } =
      partsFrom (⟨literal '.', .yes⟩ :: parts) { p with rest := rest } := by
  refine partsFrom_step 0 fun fuel _ => ?_
  rw [parts?]
  rfl

/-- What stands in round brackets. -/
theorem partsFrom_group {calls : Nat} {part : Part}
    (h : ∀ fuel, calls ≤ fuel → group? fuel {} { p with rest := rest } = .ok (some part, q)) :
    partsFrom parts { p with rest := '(' :: rest } = partsFrom (part :: parts) q := by
  refine partsFrom_step calls fun fuel hfuel => ?_
  rw [parts?]
  show (group? fuel {} { p with rest := rest } >>= _) = _
  rw [h fuel hfuel]
  rfl

end

/-- A text is read alike after the same parts, known or written. -/
theorem readAfter_congr {parts parts' : List Part} {widths widths' : List Width}
    {text text' : List Char} (hlength : text'.length ≤ text.length)
    (h : partsFrom parts.reverse (.start widths text) =
      partsFrom parts'.reverse (.start widths' text')) :
    readAfter parts widths text = readAfter parts' widths' text' := by
  have hsame := alternatives_congr h hlength
  rw [readAfter_eq, readAfter_eq]
  exact congrArg (· >>= finish) hsame

end ReleaseRunner.Pattern
