import ReleaseRunner.Pattern.Reader

/-!
# The numbers of groups

The reader numbers groups in the order in which they are opened. `Counts` says of a step which
numbers it gives away, and that it never goes back in the text. It is put together from the parts of
a step. The main statement is that a pattern has exactly the groups that were opened while it was
read, in order, and in front of them those of the parts that were known before (`groups_readAfter`).
-/

namespace ReleaseRunner.Pattern

variable {α β : Type}

/-! ## Groups -/

/-- The groups of a pattern with their bodies, in the order in which they are opened. -/
def groups : Pattern → List (Nat × Pattern)
  | seq first second => groups first ++ groups second
  | either first second => groups first ++ groups second
  | repeated body .. => groups body
  | capture index body => (index, body) :: groups body
  | atomic body => groups body
  | ahead _ body => groups body
  | behind _ _ body => groups body
  | given _ yes no => groups yes ++ groups no
  | nothing => []
  | char .. => []
  | again .. => []
  | anchor _ => []

/-- The groups of parts that are kept backwards. -/
def groupsOf (parts : List Part) : List (Nat × Pattern) :=
  parts.reverse.flatMap (·.pattern.groups)

theorem groups_sequence (ps : List Pattern) : (sequence ps).groups = ps.flatMap groups := by
  induction ps with
  | nil => rfl
  | cons p ps ih =>
    cases ps with
    | nil => simp [sequence]
    | cons q ps =>
      rw [List.flatMap_cons, ← ih]
      rfl

theorem groups_ofParts (parts : List Part) : (ofParts parts).groups = groupsOf parts := by
  unfold ofParts groupsOf
  rw [groups_sequence, List.flatMap_map]

theorem groupsOf_cons (part : Part) (parts : List Part) :
    groupsOf (part :: parts) = groupsOf parts ++ part.pattern.groups := by
  unfold groupsOf
  rw [List.reverse_cons, List.flatMap_append, List.flatMap_singleton]

/-! ## Steps -/

theorem step_bind (x : Step α) (f : α → Step β) (p : Progress) :
    (x >>= f) p = match x p with
      | .ok (a, q) => f a q
      | .error e => .error e := by
  show (x p >>= fun (a, q) => f a q) = _
  cases x p <;> rfl

theorem ok_of_bind {x : Step α} {f : α → Step β} {p r : Progress} {b : β}
    (h : (x >>= f) p = .ok (b, r)) : ∃ a q, x p = .ok (a, q) ∧ f a q = .ok (b, r) := by
  rw [step_bind] at h
  rcases hr : x p with e | ⟨a, q⟩
  · rw [hr] at h
    cases h
  · rw [hr] at h
    exact ⟨a, q, rfl, h⟩

/-- One of two steps came before what is left. -/
theorem ok_of_branch {c : Prop} [Decidable c] {x y : Step α} {f : α → Step β} {p r : Progress}
    {b : β} (h : (if c then x >>= f else y >>= f) p = .ok (b, r)) :
    ∃ a q, (if c then x else y) p = .ok (a, q) ∧ f a q = .ok (b, r) := by
  split at h
  · next hc =>
    obtain ⟨a, q, hx, h⟩ := ok_of_bind h
    exact ⟨a, q, by rwa [if_pos hc], h⟩
  · next hc =>
    obtain ⟨a, q, hy, h⟩ := ok_of_bind h
    exact ⟨a, q, by rwa [if_neg hc], h⟩

theorem take?_eq (p : Progress) :
    take? p = .ok (p.rest.head?, { p with rest := p.rest.tail }) := by
  obtain ⟨rest, -⟩ := p
  cases rest <;> rfl

theorem discard_take?_eq (p : Progress) :
    (discard take? : Step Unit) p = .ok ((), { p with rest := p.rest.tail }) := by
  show ((fun _ => ()) <$> take? : Step Unit) p = _
  rw [map_eq_pure_bind, step_bind, take?_eq]
  rfl

theorem accept_eq (c : Char) (p : Progress) :
    accept c p = if p.rest.head? = some c then .ok (true, { p with rest := p.rest.tail })
      else .ok (false, p) := by
  show (if p.rest.head? == some c then (discard take? >>= fun _ => return true : Step Bool)
    else return false) p = _
  by_cases h : p.rest.head? = some c
  · rw [if_pos (beq_iff_eq.mpr h), if_pos h, step_bind, discard_take?_eq]
    rfl
  · rw [if_neg (mt beq_iff_eq.mp h), if_neg h]
    rfl

theorem take_eq_ok {p q : Progress} {c : Char} (h : take p = .ok (c, q)) :
    p.rest = c :: q.rest ∧ q.groups = p.groups := by
  obtain ⟨next, r, hr, h⟩ := ok_of_bind h
  rw [take?_eq] at hr
  cases hr
  cases hrest : p.rest with
  | nil =>
    rw [hrest] at h
    cases h
  | cons d rest =>
    rw [hrest] at h
    cases h
    exact ⟨rfl, rfl⟩

/-- Where the step gives a result, it leaves no more text than there was, and the groups that it
opens have the next numbers. The result is as described with regard to these numbers. -/
def Counts (x : Step α) (Q : α → List Nat → Prop) : Prop :=
  ∀ p a q, x p = .ok (a, q) → q.rest.length ≤ p.rest.length ∧
    ∃ count, q.groups = p.groups + count ∧ Q a (List.range' (p.groups + 1) count)

/-- The step opens no groups, and what it gives is as described. -/
def Quiet (x : Step α) (P : α → Prop) : Prop :=
  Counts x fun a opened => opened = [] ∧ P a

namespace Counts

variable {x : Step α} {Q R : α → List Nat → Prop} {f : α → Step β} {S : β → List Nat → Prop}

theorem pure {a : α} (h : Q a []) : Counts (pure a) Q := by
  intro p b q hb
  cases hb
  exact ⟨Nat.le_refl _, 0, rfl, h⟩

theorem throw (e : Error) : Counts (throw e : Step α) Q := by
  intro p a q h
  cases h

theorem malformed : Counts (Pattern.malformed : Step α) Q := throw _

theorem mono (h : Counts x Q) (hQ : ∀ a opened, Q a opened → R a opened) : Counts x R := by
  intro p a q ha
  obtain ⟨hrest, count, hgroups, ha⟩ := h p a q ha
  exact ⟨hrest, count, hgroups, hQ _ _ ha⟩

/-- A step and what comes after it: the numbers are given away one after the other. -/
theorem bind (hx : Counts x Q)
    (hf : ∀ a opened, Q a opened → Counts (f a) fun b opened' => S b (opened ++ opened')) :
    Counts (x >>= f) S := by
  intro p b r h
  rw [step_bind] at h
  rcases hr : x p with e | ⟨a, q⟩
  · rw [hr] at h
    cases h
  · rw [hr] at h
    obtain ⟨hrest, count, hgroups, ha⟩ := hx p a q hr
    obtain ⟨hrest', count', hgroups', hb⟩ := hf a _ ha q b r h
    refine ⟨Nat.le_trans hrest' hrest, count + count', by omega, ?_⟩
    rw [hgroups, Nat.add_right_comm, List.range'_append_1] at hb
    exact hb

/-- After a step that opens no groups the numbers are those of what comes after it. -/
theorem quiet_bind {P : α → Prop} (hx : Quiet x P) (hf : ∀ a, P a → Counts (f a) S) :
    Counts (x >>= f) S := by
  refine bind hx ?_
  rintro a _ ⟨rfl, ha⟩
  exact hf a ha

/-- What was learned of the reader may be used. -/
theorem get_bind {f : Progress → Step β} (hf : ∀ p, Counts (f p) S) :
    Counts ((MonadState.get : Step Progress) >>= f) S :=
  fun p => hf p p

/-- What the reader knows besides the text and its groups may be changed. -/
theorem adjust {g : Progress → Progress} {f : Progress → Step β} (hrest : ∀ p, (g p).rest = p.rest)
    (hgroups : ∀ p, (g p).groups = p.groups) (hf : ∀ p, Counts (f p) S) :
    Counts ((MonadState.get : Step Progress) >>= fun p => set (g p) >>= fun _ => f p) S := by
  intro p b q h
  have hq := hf p (g p) b q h
  rwa [hrest, hgroups] at hq

theorem ite {c : Prop} [Decidable c] {y : Step α} (hx : c → Counts x Q) (hy : ¬c → Counts y Q) :
    Counts (if c then x else y) Q := by
  split
  · next h => exact hx h
  · next h => exact hy h

/-- What is an error under a condition goes on otherwise. -/
theorem guarded {c : Prop} [Decidable c] {e : Error} {g : Unit → Step β}
    (hg : ¬c → Counts (g ()) S) :
    Counts (if c then (MonadExcept.throw e : Step Unit) >>= g else g ()) S :=
  ite (fun _ => bind (throw (Q := fun _ _ => False) e) fun _ _ h => h.elim) hg

/-- One of two steps, and what comes after either of them. -/
theorem branch {c : Prop} [Decidable c] {y : Step α} (hx : Counts x Q) (hy : Counts y Q)
    (hf : ∀ a opened, Q a opened → Counts (f a) fun b opened' => S b (opened ++ opened')) :
    Counts (if c then x >>= f else y >>= f) S :=
  ite (fun _ => bind hx hf) fun _ => bind hy hf

/-- A step that opens no groups may come first. -/
theorem sometimes {c : Prop} [Decidable c] {x : Step Unit} {P : Unit → Prop} {f : Unit → Step β}
    (hx : Quiet x P) (hf : ∀ r, Counts (f r) S) : Counts (if c then x >>= f else f ()) S :=
  ite (fun _ => quiet_bind hx fun r _ => hf r) fun _ => hf ()

end Counts

namespace Quiet

variable {x : Step α} {P : α → Prop} {f : α → Step β} {S : β → Prop}

theorem pure {a : α} (h : P a) : Quiet (Pure.pure a) P := Counts.pure ⟨rfl, h⟩

theorem bind (hx : Quiet x P) (hf : ∀ a, P a → Quiet (f a) S) : Quiet (x >>= f) S :=
  Counts.quiet_bind hx hf

/-- A step that moves on in the text, but leaves the groups alone. -/
theorem of_eq (h : ∀ p a q, x p = .ok (a, q) →
    q.rest.length ≤ p.rest.length ∧ q.groups = p.groups ∧ P a) : Quiet x P := by
  intro p a q ha
  obtain ⟨hrest, hgroups, ha⟩ := h p a q ha
  exact ⟨hrest, 0, hgroups, rfl, ha⟩

theorem ok (h : Quiet x P) {p q : Progress} {a : α} (ha : x p = .ok (a, q)) :
    q.rest.length ≤ p.rest.length ∧ q.groups = p.groups ∧ P a := by
  obtain ⟨hrest, count, hgroups, hnone, ha⟩ := h p a q ha
  have hcount : count = 0 := by simpa using hnone
  exact ⟨hrest, by rw [hgroups, hcount, Nat.add_zero], ha⟩

/-- A step that goes on from no more text than there was. -/
theorem ok_trans (h : Quiet x P) {p q r : Progress} {a : α} (ha : x q = .ok (a, r))
    (hrest : q.rest.length ≤ p.rest.length) (hgroups : q.groups = p.groups) :
    r.rest.length ≤ p.rest.length ∧ r.groups = p.groups ∧ P a := by
  obtain ⟨hrest', hgroups', ha⟩ := h.ok ha
  exact ⟨Nat.le_trans hrest' hrest, hgroups'.trans hgroups, ha⟩

theorem modified {g : Progress → Progress} (hrest : ∀ p, (g p).rest = p.rest)
    (hgroups : ∀ p, (g p).groups = p.groups) : Quiet (modify g : Step Unit) fun _ => True :=
  of_eq fun p a q h => by
    cases h
    exact ⟨Nat.le_of_eq (by rw [hrest]), hgroups p, trivial⟩

theorem discard (h : Quiet x P) : Quiet (Functor.discard x) fun _ => True :=
  h.bind fun _ _ => pure trivial

/-! ### Through the text -/

theorem peek : Quiet Pattern.peek fun _ => True :=
  Counts.get_bind fun _ => pure trivial

theorem take? : Quiet Pattern.take? fun _ => True := by
  refine of_eq fun p a q h => ?_
  rw [take?_eq] at h
  cases h
  exact ⟨by simp, rfl, trivial⟩

theorem take : Quiet Pattern.take fun _ => True := by
  refine take?.bind fun c _ => ?_
  split
  · exact pure trivial
  · exact Counts.malformed

theorem accept (c : Char) : Quiet (Pattern.accept c) fun _ => True :=
  peek.bind fun _ _ => Counts.ite (fun _ => take?.discard.bind fun _ _ => pure trivial)
    fun _ => pure trivial

theorem expect (c : Char) : Quiet (Pattern.expect c) fun _ => True :=
  (accept c).bind fun _ _ => Counts.ite (fun _ => pure trivial) fun _ => Counts.malformed

theorem takeWhile (holds : Char → Bool) (limit : Option Nat) :
    Quiet (Pattern.takeWhile holds limit) fun _ => True := by
  refine of_eq fun p a q h => ?_
  cases h
  exact ⟨by simp, rfl, trivial⟩

theorem takeUntil (c : Char) : Quiet (Pattern.takeUntil c) fun _ => True :=
  (takeWhile _ _).bind fun _ _ => (expect c).bind fun _ _ => Counts.guarded fun _ => pure trivial

theorem checkReference (group : Nat) : Quiet (Pattern.checkReference group) fun _ => True := by
  refine Counts.get_bind fun p => Counts.guarded fun _ => ?_
  split
  · exact Counts.ite (fun _ => Counts.malformed) fun _ => pure trivial
  · exact pure trivial

/-! ### Escapes and classes -/

theorem codeOf (count : Nat) : Quiet (Pattern.codeOf count) fun _ => True :=
  (takeWhile _ _).bind fun _ _ => Counts.guarded fun _ => Counts.guarded fun _ => pure trivial

theorem plainEscape (c : Char) : Quiet (Pattern.plainEscape c) fun _ => True :=
  Counts.ite (fun _ => codeOf 2) fun _ => Counts.ite (fun _ => codeOf 4) fun _ =>
    Counts.ite (fun _ => codeOf 8) fun _ => Counts.ite (fun _ => Counts.malformed)
      fun _ => pure trivial

theorem classEscape : Quiet Pattern.classEscape fun _ => True := by
  refine take.bind fun c _ => ?_
  split
  · exact pure trivial
  · split
    · exact pure trivial
    · exact Counts.ite
        (fun _ => (takeWhile _ _).bind fun _ _ => Counts.guarded fun _ => pure trivial)
        fun _ => Counts.ite (fun _ => Counts.malformed)
          fun _ => (plainEscape c).bind fun _ _ => pure trivial

theorem numberEscape (mode : Mode) (first : Char) :
    Quiet (Pattern.numberEscape mode first) fun part => part.pattern.groups = [] := by
  refine (takeWhile _ _).bind fun second _ => ?_
  refine Counts.branch (takeWhile _ _) (pure trivial) ?_
  rintro third _ ⟨rfl, -⟩
  exact Counts.ite (fun _ => (checkReference _).bind fun _ _ => pure rfl)
    fun _ => Counts.guarded fun _ => pure rfl

theorem escape (mode : Mode) :
    Quiet (Pattern.escape mode) fun part => part.pattern.groups = [] := by
  refine take.bind fun c _ => ?_
  split
  · exact pure rfl
  · split
    · exact pure rfl
    · split
      · exact pure rfl
      · exact Counts.ite (fun _ => (takeWhile _ _).bind fun _ _ => pure rfl) fun _ =>
          Counts.ite (fun _ => numberEscape mode c) fun _ =>
            (plainEscape c).bind fun _ _ => pure rfl

theorem classItem (c : Char) : Quiet (Pattern.classItem c) fun _ => True :=
  Counts.ite (fun _ => classEscape) fun _ => pure trivial

theorem classItems : ∀ (fuel : Nat) (items : List ClassItem),
    Quiet (Pattern.classItems fuel items) fun _ => True := by
  intro fuel
  induction fuel with
  | zero => exact fun _ => Counts.malformed
  | succ fuel ih =>
    intro items
    refine take.bind fun c _ => Counts.ite (fun _ => pure trivial) fun _ => ?_
    refine (classItem c).bind fun item _ => (accept '-').bind fun _ _ =>
      Counts.ite (fun _ => ?_) fun _ => ih _
    refine take.bind fun d _ => Counts.ite (fun _ => pure trivial) fun _ => ?_
    refine (classItem d).bind fun item' _ => ?_
    split
    · exact Counts.guarded fun _ => ih _
    · exact Counts.malformed

theorem bracketClass (mode : Mode) :
    Quiet (Pattern.bracketClass mode) fun part => part.pattern.groups = [] :=
  (accept '^').bind fun _ _ => Counts.get_bind fun _ => (classItems _ _).bind fun _ _ => pure rfl

/-! ### Repetition -/

/-- What is no pair of limits is left in place. -/
theorem limits? : Quiet Pattern.limits? fun _ => True := by
  refine of_eq fun start a q h => ?_
  obtain ⟨_, _, hget, h⟩ := ok_of_bind h
  cases hget
  obtain ⟨_, _, hpeek, h⟩ := ok_of_bind h
  cases hpeek
  split at h
  · cases h
    exact ⟨Nat.le_refl _, rfl, trivial⟩
  · obtain ⟨low, p, hlow, h⟩ := ok_of_bind h
    obtain ⟨hrest, hgroups, -⟩ := (takeWhile _ _).ok hlow
    obtain ⟨comma, r, hcomma, h⟩ := ok_of_bind h
    obtain ⟨hrest, hgroups, -⟩ := (accept ',').ok_trans hcomma hrest hgroups
    obtain ⟨high, s, hhigh, h⟩ := ok_of_branch h
    obtain ⟨hrest, hgroups, -⟩ := Quiet.ok_trans (P := fun _ => True)
      (Counts.ite (fun _ => takeWhile _ _) fun _ => pure trivial) hhigh hrest hgroups
    obtain ⟨closed, t, hclosed, h⟩ := ok_of_bind h
    obtain ⟨hrest, hgroups, -⟩ := (accept _).ok_trans hclosed hrest hgroups
    split at h
    · refine Quiet.ok_trans (P := fun _ => True) ?_ h hrest hgroups
      exact Counts.guarded fun _ => Counts.ite (fun _ => pure trivial) fun _ =>
        Counts.guarded fun _ => Counts.guarded fun _ => pure trivial
    · cases h
      exact ⟨Nat.le_refl _, rfl, trivial⟩

theorem markLimits? (c : Char) : Quiet (Pattern.markLimits? c) fun _ => True := by
  unfold Pattern.markLimits?
  split
  · exact pure trivial
  · exact pure trivial
  · exact pure trivial
  · exact limits?

theorem markAppetite : Quiet Pattern.markAppetite fun _ => True :=
  (accept '?').bind fun _ _ => Counts.ite (fun _ => pure trivial) fun _ =>
    (accept '+').bind fun _ _ => Counts.ite (fun _ => pure trivial) fun _ => pure trivial

theorem repeatLast (limits : Nat × Option Nat) (parts : List Part) :
    Quiet (Pattern.repeatLast limits parts) fun parts' => groupsOf parts' = groupsOf parts := by
  unfold Pattern.repeatLast
  split
  · refine markAppetite.bind fun _ _ => pure ?_
    rw [groupsOf_cons, groupsOf_cons]
    rfl
  · exact Counts.malformed

/-! ### Groups -/

theorem groupMode (mode : Mode) (first : Char) :
    Quiet (Pattern.groupMode mode first) fun _ => True := by
  refine of_eq fun p a q h => ?_
  obtain ⟨_, _, hget, h⟩ := ok_of_bind h
  cases hget
  obtain ⟨_, _, hset, h⟩ := ok_of_bind h
  cases hset
  dsimp only at h
  split at h
  · cases h
  obtain ⟨c, q', hc, h⟩ := ok_of_bind h
  obtain ⟨htaken, hgroups⟩ := take_eq_ok hc
  -- even if the letter was none of a mode, it is taken now
  have hrest : q'.rest.length ≤ p.rest.length := by
    have hlength := congrArg List.length htaken
    simp only [List.length_drop, List.length_cons] at hlength
    omega
  refine Quiet.ok_trans (P := fun _ => True) ?_ h hrest hgroups
  exact Counts.ite (fun _ => pure trivial) fun _ => Counts.guarded fun _ =>
    (takeWhile _ _).bind fun _ _ => (expect _).bind fun _ _ =>
      Counts.guarded fun _ => pure trivial

theorem conditionGroup (name : List Char) : Quiet (Pattern.conditionGroup name) fun _ => True := by
  refine of_eq fun p a q h => ?_
  obtain ⟨_, _, hget, h⟩ := ok_of_bind h
  cases hget
  split at h
  · cases hfind : p.names.find? (·.1 == name) with
    | some found =>
      simp only [hfind] at h
      cases h
      exact ⟨Nat.le_refl _, rfl, trivial⟩
    | none =>
      simp only [hfind] at h
      cases h
  · split at h
    · dsimp only at h
      split at h
      · cases h
      · cases h
        exact ⟨Nat.le_refl _, rfl, trivial⟩
    · cases h

theorem closeGroup (group : Nat) (pattern : Pattern) :
    Quiet (Pattern.closeGroup group pattern) fun _ => True :=
  of_eq fun p a q h => by
    cases h
    exact ⟨Nat.le_refl _, rfl, trivial⟩

theorem lookBehind (wanted : Bool) (body : Pattern) :
    Quiet (Pattern.lookBehind wanted body) fun part => part.pattern.groups = body.groups :=
  Counts.get_bind fun _ => Counts.ite (fun _ => pure rfl) fun _ => Counts.malformed

end Quiet

/-- A group that is opened has the next number. -/
theorem Counts.openGroup (name : Option (List Char)) :
    Counts (Pattern.openGroup name) fun index opened => opened = [index] := by
  intro p a q h
  obtain ⟨_, _, hget, h⟩ := ok_of_bind h
  cases hget
  cases name with
  | none =>
    cases h
    exact ⟨Nat.le_refl _, 1, rfl, rfl⟩
  | some name =>
    dsimp only at h
    split at h
    · cases h
    · cases h
      exact ⟨Nat.le_refl _, 1, rfl, rfl⟩

/-! ## The reader -/

/-- The pattern has the groups of the parts that were known before, and after them those that were
opened, in order. -/
def Continues (parts : List Part) (pattern : Pattern) (opened : List Nat) : Prop :=
  ∃ new, pattern.groups = groupsOf parts ++ new ∧ new.map Prod.fst = opened

namespace Continues

variable {parts : List Part} {part : Part} {pattern : Pattern} {opened opened' : List Nat}

theorem ofParts (parts : List Part) : Continues parts (ofParts parts) [] :=
  ⟨[], by rw [groups_ofParts, List.append_nil], rfl⟩

/-- What was read from its start on has the groups that were opened. -/
theorem nil_iff : Continues [] pattern opened ↔ pattern.groups.map Prod.fst = opened := by
  constructor
  · rintro ⟨new, hnew, rfl⟩
    rw [hnew]
    rfl
  · rintro rfl
    exact ⟨_, rfl, rfl⟩

theorem congr {parts' : List Part} (h : Continues parts' pattern opened)
    (hsame : groupsOf parts' = groupsOf parts) : Continues parts pattern opened := by
  obtain ⟨new, hnew, hopened⟩ := h
  exact ⟨new, by rw [hnew, hsame], hopened⟩

/-- The groups of a part were opened before those that come after it. -/
theorem cons (h : Continues (part :: parts) pattern opened')
    (hpart : part.pattern.groups.map Prod.fst = opened) :
    Continues parts pattern (opened ++ opened') := by
  obtain ⟨new, hnew, rfl⟩ := h
  refine ⟨part.pattern.groups ++ new, ?_, by rw [List.map_append, hpart]⟩
  rw [hnew, groupsOf_cons, List.append_assoc]

/-- A part without groups leaves them as they are. -/
theorem quiet (h : Continues (part :: parts) pattern opened) (hpart : part.pattern.groups = []) :
    Continues parts pattern opened :=
  h.congr (by rw [groupsOf_cons, hpart, List.append_nil])

end Continues

/-- The groups of what stands in round brackets; a comment has none. -/
def groupsIn (part : Option Part) : List (Nat × Pattern) :=
  (part.map (·.pattern.groups)).getD []

/-- What stands in brackets is read and the bracket closed, which opens no further groups. -/
theorem Counts.closed {body : Step Pattern} {f : Pattern → Option Part}
    (hbody : Counts body (Continues [])) (hf : ∀ p, groupsIn (f p) = p.groups) :
    Counts (do let p ← body; expect ')'; return f p)
      fun part opened => (groupsIn part).map Prod.fst = opened := by
  refine .bind hbody fun p opened hp => .quiet_bind (.expect _) fun _ _ => .pure ?_
  rw [hf, Continues.nil_iff.mp hp, List.append_nil]

/-- A group that captures is opened before those within it. -/
theorem Counts.captured {body : Step Pattern} (name : Option (List Char))
    (hbody : Counts body (Continues [])) :
    Counts (do
      let index ← Pattern.openGroup name
      let p ← body
      expect ')'
      closeGroup index p
      return some { pattern := capture index p })
      fun part opened => (groupsIn part).map Prod.fst = opened := by
  refine .bind (.openGroup name) ?_
  rintro index _ rfl
  refine .bind hbody fun p opened hp => .quiet_bind (.expect _) fun _ _ =>
    .quiet_bind (.closeGroup _ _) fun _ _ => .pure ?_
  rw [List.append_nil, ← Continues.nil_iff.mp hp]
  rfl

/-- What a reader with so many calls left opens. -/
structure Numbers (fuel : Nat) : Prop where
  alternatives : ∀ mode parts, Counts (alternatives fuel mode parts) (Continues parts)
  parts : ∀ mode parts, Counts (parts? fuel mode parts) (Continues parts)
  group : ∀ mode, Counts (group? fuel mode) fun part opened =>
    (groupsIn part).map Prod.fst = opened

namespace Numbers

variable {fuel : Nat} (ih : Numbers fuel)
include ih

theorem alternatives_succ (mode : Mode) (parts : List Part) :
    Counts (Pattern.alternatives (fuel + 1) mode parts) (Continues parts) := by
  unfold Pattern.alternatives
  refine .bind (ih.parts mode parts) ?_
  rintro first opened ⟨new, hnew, rfl⟩
  refine .quiet_bind (.accept _) fun _ _ => .ite (fun _ => ?_) fun _ => .pure ?_
  · refine .bind (ih.alternatives mode []) fun second opened' hsecond => .pure ?_
    have hsecond := Continues.nil_iff.mp hsecond
    refine ⟨new ++ second.groups, ?_, by rw [List.map_append, hsecond, List.append_nil]⟩
    rw [← List.append_assoc, ← hnew]
    rfl
  · exact ⟨new, hnew, by rw [List.append_nil]⟩

/-- After a part without groups. -/
private theorem known {part : Part} (mode : Mode) (parts : List Part)
    (hpart : part.pattern.groups = []) :
    Counts (parts? fuel mode (part :: parts)) (Continues parts) :=
  (ih.parts mode (part :: parts)).mono fun _ _ h => h.quiet hpart

/-- After a step that gives a part without groups. -/
private theorem plain {mode : Mode} {parts : List Part} {x : Step Part}
    (hx : Quiet x fun part => part.pattern.groups = []) :
    Counts (do let part ← x; parts? fuel mode (part :: parts)) (Continues parts) :=
  .quiet_bind hx fun _ hpart => ih.known mode parts hpart

theorem parts_succ (mode : Mode) (parts : List Part) :
    Counts (parts? (fuel + 1) mode parts) (Continues parts) := by
  unfold parts?
  refine .quiet_bind .peek fun next _ => ?_
  split
  · exact .pure (.ofParts parts)
  · refine .ite (fun _ => .pure (.ofParts parts)) fun _ => ?_
    refine .quiet_bind (.discard .take?) fun _ _ => ?_
    refine .ite (fun _ => ih.parts mode parts) fun _ => ?_
    refine .ite (fun _ => .quiet_bind (.discard (.takeWhile _ _)) fun _ _ =>
      .quiet_bind (.discard .take?) fun _ _ => ih.parts mode parts) fun _ => ?_
    refine .ite (fun _ => ih.plain (.escape mode)) fun _ => ?_
    refine .ite (fun _ => ih.plain (.bracketClass mode)) fun _ => ?_
    refine .ite (fun _ => ih.known mode parts rfl) fun _ => ?_
    refine .ite (fun _ => ih.known mode parts rfl) fun _ => ?_
    refine .ite (fun _ => ih.known mode parts rfl) fun _ => ?_
    refine .ite (fun _ => ?_) fun _ => .ite (fun _ => ?_) fun _ => ih.known mode parts rfl
    · refine .bind (ih.group mode) fun part opened hpart => ?_
      split
      · exact (ih.parts mode _).mono fun _ _ h => h.cons hpart
      · rw [← show [] = opened from hpart]
        exact ih.parts mode parts
    · refine .quiet_bind (.markLimits? _) fun limits _ => ?_
      split
      · exact .quiet_bind (.repeatLast _ parts) fun parts' hsame =>
          (ih.parts mode parts').mono fun _ _ h => h.congr hsame
      · exact ih.known mode parts rfl

theorem group_succ (mode : Mode) : Counts (group? (fuel + 1) mode) fun part opened =>
    (groupsIn part).map Prod.fst = opened := by
  have hbody : ∀ mode, Counts (Pattern.alternatives fuel mode []) (Continues []) :=
    fun mode => ih.alternatives mode []
  unfold group?
  refine .quiet_bind (.accept '?') fun _ _ => .ite (fun _ => ?_) fun _ => .captured none (hbody _)
  refine .quiet_bind .take fun c _ => ?_
  refine .ite (fun _ => .closed (hbody _) fun _ => rfl) fun _ => ?_
  refine .ite (fun _ => .closed (hbody _) fun _ => rfl) fun _ => ?_
  refine .ite (fun _ => .closed (hbody _) fun _ => rfl) fun _ => ?_
  refine .ite (fun _ => ?_) fun _ => .ite (fun _ => ?_) fun _ => .ite (fun _ => ?_) fun _ =>
    .ite (fun _ => ?_) fun _ => ?_
  · -- a look behind
    refine .quiet_bind .take fun _ _ => .guarded fun _ => ?_
    refine .adjust (fun _ => rfl) (fun _ => rfl) fun p => ?_
    refine .bind (hbody _) fun body opened hbody => ?_
    refine .quiet_bind (.modified (fun _ => rfl) fun _ => rfl) fun _ _ => ?_
    refine .quiet_bind (.expect _) fun _ _ => ?_
    refine .quiet_bind (.lookBehind _ body) fun part hpart => .pure ?_
    rw [← Continues.nil_iff.mp hbody, List.append_nil, ← hpart]
    rfl
  · -- a comment
    exact .quiet_bind (.discard (.takeWhile _ _)) fun _ _ => .quiet_bind (.expect _) fun _ _ =>
      .pure rfl
  · -- a name
    refine .quiet_bind .take fun _ _ => .ite (fun _ => ?_) fun _ => .ite (fun _ => ?_)
      fun _ => .malformed
    · exact .quiet_bind (.takeUntil _) fun name _ => .guarded fun _ =>
        .captured (some name) (hbody _)
    · refine .quiet_bind (.takeUntil _) fun name _ => .get_bind fun p => ?_
      split
      · exact .quiet_bind (.checkReference _) fun _ _ => .pure rfl
      · exact .malformed
  · -- a condition
    refine .quiet_bind (.takeUntil _) fun name _ => ?_
    refine .quiet_bind (.conditionGroup name) fun index _ => .get_bind fun p => ?_
    refine .sometimes (.checkReference index) fun _ => ?_
    have hpart : Counts (parts? fuel mode []) fun pattern opened =>
        pattern.groups.map Prod.fst = opened :=
      (ih.parts mode []).mono fun _ _ h => Continues.nil_iff.mp h
    refine .bind hpart fun yes opened hyes => .quiet_bind (.accept '|') fun _ _ => ?_
    refine .branch hpart (.pure rfl) fun no opened' hno => ?_
    refine .quiet_bind (.expect _) fun _ _ => .pure ?_
    rw [List.append_nil, ← hyes, ← hno, ← List.map_append]
    rfl
  · exact .quiet_bind (.groupMode mode c) fun mode _ => .closed (hbody mode) fun _ => rfl

end Numbers

/-- The reader numbers groups in the order in which they are opened. -/
theorem numbers (fuel : Nat) : Numbers fuel := by
  induction fuel with
  | zero => exact ⟨fun _ _ => .malformed, fun _ _ => .malformed, fun _ => .malformed⟩
  | succ fuel ih => exact ⟨ih.alternatives_succ, ih.parts_succ, ih.group_succ⟩

/-! ## The whole of a text -/

/-- What the reader knows in front of a text, where there were groups of the given widths before. -/
def Progress.start (widths : List Width) (text : List Char) : Progress where
  rest := text
  groups := widths.length
  widths := (widths.zipIdx.map fun (w, i) => (i + 1, w)).reverse

/-- A pattern is read if nothing of the text is left, and there are all groups that conditions refer
to. -/
def finish : Pattern × Progress → Except Error (Pattern × Nat)
  | (pattern, p) =>
    if !p.rest.isEmpty || p.conditions.any (p.groups < ·) then .error .malformed
    else .ok (pattern, p.groups)

theorem readAfter_eq (parts : List Part) (widths : List Width) (text : List Char) :
    readAfter parts widths text =
      alternatives (3 * text.length + 3) {} parts.reverse (.start widths text) >>= finish := by
  show (alternatives (3 * text.length + 3) {} parts.reverse (.start widths text) >>= _) = _
  congr 1

/-- A pattern that is read after known parts has their groups, and then those that were opened while
it was read, which have the next numbers in order. -/
theorem groups_readAfter {parts : List Part} {widths : List Width} {text : List Char}
    {pattern : Pattern} {count : Nat} (h : readAfter parts widths text = .ok (pattern, count)) :
    ∃ new, pattern.groups = parts.flatMap (·.pattern.groups) ++ new ∧ widths.length ≤ count ∧
      new.map Prod.fst = List.range' (widths.length + 1) (count - widths.length) := by
  have hopens := (numbers (3 * text.length + 3)).alternatives {} parts.reverse
  rw [readAfter_eq] at h
  rcases hr : alternatives (3 * text.length + 3) {} parts.reverse (.start widths text) with
    e | ⟨pattern', p⟩
  · rw [hr] at h
    cases h
  · rw [hr] at h
    obtain ⟨-, opened, hopened, new, hnew, hnumbers⟩ := hopens _ _ _ hr
    have hgroups : p.groups = widths.length + opened := hopened
    change (if _ then Except.error Error.malformed else .ok (pattern', p.groups)) = _ at h
    split at h
    · cases h
    · cases h
      refine ⟨new, ?_, by omega, ?_⟩
      · rw [hnew, groupsOf, List.reverse_reverse]
      · rw [hnumbers, hgroups, Nat.add_sub_cancel_left]
        rfl

end ReleaseRunner.Pattern
