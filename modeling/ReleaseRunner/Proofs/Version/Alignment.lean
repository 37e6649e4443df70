import ReleaseRunner.Config.Validation
import ReleaseRunner.Proofs.Pattern.Numbering
import ReleaseRunner.Proofs.Version.Assembly
import ReleaseRunner.Proofs.Version.Grammar

/-!
# Numbers and groups

A version is taken out of the groups of a match by their positions alone: each number that the
format has takes the next group, and the modifier is the last one that is left over. Nothing but the
order holds the groups and the numbers together, and a format may bring any groups of its own.

`inTurn` goes this way step by step, and could fail where there is no piece to take out or no group
left. The main theorem says that it never does, since the tokens open the first groups in just this
order (`of_aligned`).
-/

namespace ReleaseRunner.Version

open ReleaseRunner.Text Pattern

/-! ## Groups in turn -/

/-- The numbers that a format has, in the order in which they take their groups. -/
def Format.recorded (format : Format) : List Slot :=
  .year :: [.week, .month, .day, .minor, .micro].filter fun slot => (format.token? slot).isSome

/-- The numbers with the groups that they take in turn, and the groups that are left over; nothing
if the groups run out. -/
def handOut : List Slot → List (Option (List Char)) →
    Option (List (Slot × Option (List Char)) × List (Option (List Char)))
  | [], groups => some ([], groups)
  | _ :: _, [] => none
  | slot :: slots, group :: groups =>
    (handOut slots groups).map fun (taken, others) => ((slot, group) :: taken, others)

/-- The text that a number has taken. -/
def numberOf (taken : List (Slot × Option (List Char))) (slot : Slot) : Option String :=
  ((taken.find? (·.1 == slot)).bind (·.2)).map String.ofList

/-- Why no version is taken out of a text. -/
inductive Mishap where
  | version (error : VersionError)
  | noPiece
  | noGroup
deriving Repr, DecidableEq

/-- The version whose numbers take the groups in turn. The last group that is left over is the
modifier. -/
def CalVer.ofGroups (fmt : String) (format : Format) (groups : List (Option (List Char))) :
    Except Mishap CalVer :=
  match handOut format.recorded groups with
  | none => .error .noGroup
  | some (taken, others) =>
    (ofParts fmt (numberOf taken) (others.getLast?.join.map String.ofList)).mapError .version

/-- The version that a text writes in a format, as it is found step by step: the pieces are put
together to an expression, and the numbers take their groups in turn. -/
def CalVer.inTurn (fmt version : String) : Except Mishap CalVer := do
  if isBlankText fmt then throw (.version .blankFormat)
  if isBlankText version then throw (.version .blankVersion)
  let format ← (Format.read fmt).mapError fun e => .version (.format e)
  let some pieces := format.assembled? | throw .noPiece
  let (pattern, count) ← (Pattern.read (expression pieces)).mapError fun e =>
    .version (.badPattern e)
  let some groups := pattern.match? count (stripped version.toList)
    | throw (.version (.mismatch version (String.ofList format.text)))
  ofGroups fmt format groups

theorem handOut_eq (slots : List Slot) (groups : List (Option (List Char))) :
    handOut slots groups = if slots.length ≤ groups.length
      then some (slots.zip groups, groups.drop slots.length) else none := by
  induction slots generalizing groups with
  | nil => rfl
  | cons slot slots ih =>
    cases groups with
    | nil => rfl
    | cons group groups =>
      unfold handOut
      rw [ih, List.length_cons, List.length_cons, List.zip_cons_cons, List.drop_succ_cons]
      by_cases h : slots.length ≤ groups.length
      · rw [if_pos h, if_pos (Nat.succ_le_succ h)]
        rfl
      · rw [if_neg h, if_neg (mt Nat.le_of_succ_le_succ h)]
        rfl

/-- What a number takes is what is captured in the place of its token. -/
theorem numberOf_zip (es : List Element) (groups : List (Option (List Char))) :
    numberOf ((es.map (·.token.slot)).zip groups) = CalVer.captured es groups := by
  funext slot
  unfold numberOf CalVer.captured
  induction es generalizing groups with
  | nil => rfl
  | cons e es ih =>
    cases groups with
    | nil => rfl
    | cons group groups =>
      rw [List.map_cons, List.zip_cons_cons, List.zip_cons_cons, List.find?_cons, List.find?_cons]
      cases e.token.slot == slot with
      | true => cases group <;> rfl
      | false => exact ih groups

/-! ## The order of the tokens -/

theorem Format.isSome_token? (format : Format) (slot : Slot) :
    (format.token? slot).isSome = (format.elements.map (·.token.slot)).contains slot := by
  unfold Format.token?
  rw [Option.isSome_map, Bool.eq_iff_iff, List.find?_isSome, List.contains_iff_mem, List.mem_map]
  simp only [beq_iff_eq]

/-- The tokens of a layout stand in the order in which the numbers take their groups. -/
theorem Layout.slots_filter (L : Layout) :
    L.tokens.map Token.slot = .year :: [.week, .month, .day, .minor, .micro].filter
      (L.tokens.map Token.slot).contains := by
  have hdate : L.date.fields.map (·.2.slot) ∈
      [[], [.month], [.month, .day], [.week]] := by
    cases L.date with
    | none => exact List.mem_cons_self
    | month s padded => cases padded <;> simp [DateForm.fields, Token.slot]
    | monthAndDay s padded s' padded' =>
      cases padded <;> cases padded' <;> simp [DateForm.fields, Token.slot]
    | week s padded => cases padded <;> simp [DateForm.fields, Token.slot]
  have hminor : (L.minor.toList.map fun _ => Slot.minor) ∈ [[], [.minor]] := by
    cases L.minor <;> simp
  have hmicro : (L.micro.toList.map fun _ => Slot.micro) ∈ [[], [.micro]] := by
    cases L.micro <;> simp
  have hall : ∀ date ∈ [[], [.month], [.month, .day], [.week]], ∀ minor ∈ [[], [Slot.minor]],
      ∀ micro ∈ [[], [Slot.micro]],
      Slot.year :: (date ++ (minor ++ micro)) =
        .year :: [.week, .month, .day, .minor, .micro].filter
          (Slot.year :: (date ++ (minor ++ micro))).contains := by
    decide
  rw [L.slots_tokens]
  exact hall _ hdate _ hminor _ hmicro

/-- The tokens of a format that was read stand in the order in which its numbers take their
groups. -/
theorem Format.slots_eq_recorded {fmt : String} {format : Format}
    (h : Format.read fmt = .ok format) :
    format.elements.map (·.token.slot) = format.recorded := by
  obtain ⟨⟨L, htokens⟩, -⟩ := Format.opens_of_read h
  have hslots : format.elements.map (·.token.slot) = L.tokens.map Token.slot := by
    rw [← htokens, List.map_map]
    rfl
  unfold Format.recorded
  simp only [Format.isSome_token?]
  rw [hslots]
  exact L.slots_filter

/-! ## The groups of the tokens -/

/-- The form of a token has no groups of its own. -/
theorem groups_token (t : Token) : t.pattern.groups = [] := by
  cases t <;> rfl

/-- The groups of the tokens: one for each, numbered in turn. -/
def Format.ownGroups (format : Format) : List (Nat × Pattern) :=
  (format.elements.zipIdx 1).map fun (e, i) => (i, e.token.pattern)

/-- The parts that are known of the tokens have a group for each token and no others. -/
theorem groups_knownParts (es : List Element) (i : Nat) :
    (Format.knownParts i es).flatMap (·.pattern.groups) =
      (es.zipIdx i).map fun (e, j) => (j, e.token.pattern) := by
  have hcapture : ∀ (t : Token) j, (capture j t.pattern).groups = [(j, t.pattern)] := by
    intro t j
    rw [groups, groups_token]
  induction es generalizing i with
  | nil => rfl
  | cons e es ih =>
    rw [List.zipIdx_cons, List.map_cons, ← ih]
    cases es with
    | nil => exact congrArg (· ++ []) (hcapture e.token i)
    | cons e' es =>
      obtain ⟨t, _ | c⟩ := e
      · exact congrArg (· ++ _) (hcapture t i)
      · exact congrArg (· ++ _) (hcapture t i)

namespace Format

variable {fmt : String} {format : Format}

theorem elements_ne_nil (h : Format.read fmt = .ok format) : format.elements ≠ [] := by
  obtain ⟨⟨L, htokens⟩, -⟩ := opens_of_read h
  intro hnil
  rw [hnil] at htokens
  cases htokens

/-- The groups of the tokens come first, and all groups are numbered in turn. -/
theorem groups_expression (h : Format.read fmt = .ok format) {pattern : Pattern} {count : Nat}
    (hread : Pattern.read (expression format.pieces) = .ok (pattern, count)) :
    ∃ more, pattern.groups = format.ownGroups ++ more ∧
      pattern.groups.map Prod.fst = List.range' 1 count := by
  rw [read_expression (opens_of_read h).2 (elements_ne_nil h)] at hread
  obtain ⟨more, hgroups, hlength, hmore⟩ := groups_readAfter hread
  rw [List.length_map] at hlength hmore
  have hown : (⟨anchor .textStart, .anchor⟩ :: knownParts 1 format.elements : List Part).flatMap
      (·.pattern.groups) = format.ownGroups := groups_knownParts format.elements 1
  rw [hown] at hgroups
  refine ⟨more, hgroups, ?_⟩
  have hnumbers : format.ownGroups.map Prod.fst = List.range' 1 format.elements.length := by
    unfold ownGroups
    rw [List.map_map]
    exact List.zipIdx_map_snd 1 format.elements
  rw [hgroups, List.map_append, hnumbers, hmore, Nat.add_comm format.elements.length 1,
    List.range'_append_1, Nat.add_sub_cancel' hlength]

/-- There is a group for every number. -/
theorem length_recorded_le (h : Format.read fmt = .ok format) {pattern : Pattern} {count : Nat}
    (hread : Pattern.read (expression format.pieces) = .ok (pattern, count)) :
    format.recorded.length ≤ count := by
  obtain ⟨more, hgroups, hnumbers⟩ := groups_expression h hread
  have hlength := congrArg List.length hnumbers
  rw [List.length_map, hgroups, List.length_append, List.length_range'] at hlength
  rw [← slots_eq_recorded h, List.length_map]
  have hown : format.ownGroups.length = format.elements.length := by
    unfold ownGroups
    rw [List.length_map, List.length_zipIdx]
  omega

end Format

theorem length_of_match? {pattern : Pattern} {count : Nat} {text : List Char}
    {groups : List (Option (List Char))} (h : pattern.match? count text = some groups) :
    groups.length = count := by
  obtain ⟨place, -, rfl⟩ := Option.map_eq_some_iff.mp h
  rw [List.length_map, List.length_range]

/-- Where there are enough groups, the numbers take those of their tokens. -/
theorem CalVer.ofGroups_eq {fmt : String} {format : Format} (h : Format.read fmt = .ok format)
    {groups : List (Option (List Char))} (hlength : format.recorded.length ≤ groups.length) :
    CalVer.ofGroups fmt format groups =
      (ofParts fmt (captured format.elements groups)
        ((groups.drop format.elements.length).getLast?.join.map String.ofList)).mapError
        .version := by
  unfold ofGroups
  rw [handOut_eq, if_pos hlength]
  dsimp only
  rw [← Format.slots_eq_recorded h, numberOf_zip, List.length_map]

/-- Step by step the same version is found. -/
theorem CalVer.inTurn_eq (fmt version : String) :
    CalVer.inTurn fmt version = (CalVer.of fmt version).mapError .version := by
  unfold CalVer.inTurn CalVer.of
  cases isBlankText fmt with
  | true => rfl
  | false =>
    cases isBlankText version with
    | true => rfl
    | false =>
      cases hformat : Format.read fmt with
      | error e => rfl
      | ok format =>
        have hopens := (Format.opens_of_read hformat).2
        have hne := Format.elements_ne_nil hformat
        have hread := read_expression hopens hne
        dsimp only [bind, Except.bind, Except.mapError, Bool.false_eq_true, ↓reduceIte]
        rw [Format.assembled?_eq hopens hne]
        dsimp only
        rw [hread]
        rcases hpattern : format.pattern with e | ⟨pattern, count⟩
        · rfl
        · dsimp only
          cases hmatch : pattern.match? count (stripped version.toList) with
          | none => rfl
          | some groups =>
            refine CalVer.ofGroups_eq hformat ?_
            rw [length_of_match? hmatch]
            exact Format.length_recorded_le hformat (hread.trans hpattern)

/-! ## What can go wrong -/

/-- A failure of this kind is an error about a value. -/
def IsValue (kind : FailureKind) : Prop :=
  kind = .value ∨ kind = .badFormat ∨ kind = .badMonth

/-- Whatever goes wrong is an error about a value. -/
def FailsByValue {α : Type} (x : Except VersionError α) : Prop :=
  ∀ error, x = .error error → IsValue error.failure.kind

namespace FailsByValue

variable {α β : Type}

theorem ok (a : α) : FailsByValue (.ok a) := nofun

theorem error {e : VersionError} (h : IsValue e.failure.kind) :
    FailsByValue (.error e : Except VersionError α) := by
  rintro _ ⟨⟩
  exact h

theorem bind {x : Except VersionError α} {f : α → Except VersionError β} (hx : FailsByValue x)
    (hf : ∀ a, FailsByValue (f a)) : FailsByValue (x >>= f) := by
  cases x with
  | error e => exact error (hx e rfl)
  | ok a => exact hf a

end FailsByValue

theorem CalVer.failsByValue_number (v : CalVer) (slot : Slot) :
    FailsByValue ((v.number slot).mapError .badNumber) := by
  cases v.number slot with
  | error e => exact .error (.inl rfl)
  | ok n => exact .ok n

theorem CalVer.failsByValue_checkDate (v : CalVer) : FailsByValue v.checkDate := by
  unfold checkDate
  split
  · refine .bind (v.failsByValue_number .year) fun year =>
      .bind (v.failsByValue_number .month) fun month => ?_
    split
    · exact .error (.inr (.inr rfl))
    · refine .bind (v.failsByValue_number .day) fun day => ?_
      split
      · exact .error (.inl rfl)
      · exact .ok ()
  · exact .ok ()

theorem CalVer.failsByValue_ofParts (fmt : String) (numbers : Slot → Option String)
    (modifier : Option String) : FailsByValue (ofParts fmt numbers modifier) :=
  .bind (failsByValue_checkDate _) fun _ => .ok _

/-- All errors are about values, but for those of the pattern. -/
theorem CalVer.isValue_or_badPattern {fmt version : String} {error : VersionError}
    (h : CalVer.of fmt version = .error error) :
    IsValue error.failure.kind ∨ ∃ format e, Format.read fmt = .ok format ∧
      format.pattern = .error e ∧ error = .badPattern e := by
  unfold CalVer.of at h
  cases hfmt : isBlankText fmt with
  | true =>
    rw [hfmt] at h
    cases h
    exact .inl (.inl rfl)
  | false =>
    cases hversion : isBlankText version with
    | true =>
      rw [hfmt, hversion] at h
      cases h
      exact .inl (.inl rfl)
    | false =>
      rw [hfmt, hversion] at h
      cases hformat : Format.read fmt with
      | error e =>
        rw [hformat] at h
        cases h
        exact .inl (.inr (.inl rfl))
      | ok format =>
        rw [hformat] at h
        dsimp only [bind, Except.bind, Except.mapError, Bool.false_eq_true, ↓reduceIte] at h
        rcases hpattern : format.pattern with e | ⟨pattern, count⟩
        · rw [hpattern] at h
          cases h
          exact .inr ⟨format, e, rfl, hpattern, rfl⟩
        · rw [hpattern] at h
          dsimp only at h
          cases hmatch : pattern.match? count (stripped version.toList) with
          | none =>
            rw [hmatch] at h
            cases h
            exact .inl (.inl rfl)
          | some groups =>
            rw [hmatch] at h
            exact .inl (failsByValue_ofParts _ _ _ _ h)

/-! ## The main theorem -/

/-- The pieces of a format and the groups of its expression are in step with its tokens. -/
structure Format.Aligned (format : Format) : Prop where
  /-- An optional modifier takes a separator out, and every token stays. -/
  popped : format.pops = true → ∃ c others,
    popBeforeLast? format.pushed = some (.separator c, others) ∧
      others.filterMap Piece.token? = format.elements.map (·.token)
  /-- There was a piece to take out, if one had to be. -/
  assembled : ∃ pieces, format.assembled? = some pieces
  /-- The tokens stand in the order in which the numbers take their groups. -/
  order : format.elements.map (·.token.slot) = format.recorded
  /-- A token has one group, that of its whole form. -/
  single : ∀ e ∈ format.elements, e.token.pattern.groups = []
  /-- The groups of the tokens have the first numbers, and all others come behind them. -/
  groups : ∀ pieces pattern count, format.assembled? = some pieces →
    Pattern.read (expression pieces) = .ok (pattern, count) →
      (∃ more, pattern.groups = format.ownGroups ++ more) ∧
        pattern.groups.map Prod.fst = List.range' 1 count

theorem Format.aligned {fmt : String} {format : Format} (h : Format.read fmt = .ok format) :
    format.Aligned := by
  obtain ⟨-, hopens⟩ := opens_of_read h
  have hne := elements_ne_nil h
  have hassembled := assembled?_eq hopens hne
  refine ⟨fun hpops => ?_, ⟨_, hassembled⟩, slots_eq_recorded h, fun e _ => groups_token e.token,
    fun pieces pattern count hpieces hread => ?_⟩
  · rw [pops_eq] at hpops
    have htail := tail_ne_nil hpops
    obtain ⟨init, t, c, hlast⟩ := exists_last hopens hne htail
    refine ⟨c, _, popBeforeLast?_pushed hlast htail, ?_⟩
    rw [List.filterMap_append, List.filterMap_append, filterMap_token?_pieces, hlast,
      List.map_append]
    exact List.append_nil _
  · rw [hassembled] at hpieces
    cases hpieces
    obtain ⟨more, hgroups, hnumbers⟩ := groups_expression h hread
    exact ⟨⟨more, hgroups⟩, hnumbers⟩

/-- Whatever a format is made of, its pieces and groups are in step with its tokens. So the version
that is found step by step is the version that the text writes: there is always a piece to take out
and always a group left. What goes wrong is an error about a value, or the expression is no
pattern. -/
theorem CalVer.of_aligned (fmt : String) :
    (∀ format, Format.read fmt = .ok format → format.Aligned) ∧
    ∀ version, CalVer.inTurn fmt version = (CalVer.of fmt version).mapError .version ∧
      ∀ mishap, CalVer.inTurn fmt version = .error mishap →
        ∃ error, mishap = .version error ∧ CalVer.of fmt version = .error error ∧
          (IsValue error.failure.kind ∨ ∃ format pieces e, Format.read fmt = .ok format ∧
            format.assembled? = some pieces ∧ Pattern.read (expression pieces) = .error e ∧
            error = .badPattern e) := by
  refine ⟨fun format => Format.aligned, fun version => ⟨inTurn_eq fmt version, ?_⟩⟩
  intro mishap hmishap
  rw [inTurn_eq] at hmishap
  cases hof : CalVer.of fmt version with
  | ok v =>
    rw [hof] at hmishap
    cases hmishap
  | error error =>
    rw [hof] at hmishap
    cases hmishap
    refine ⟨error, rfl, rfl, ?_⟩
    rcases isValue_or_badPattern hof with hvalue | ⟨format, e, hread, hpattern, herror⟩
    · exact .inl hvalue
    · have hopens := (Format.opens_of_read hread).2
      have hne := Format.elements_ne_nil hread
      exact .inr ⟨format, _, e, hread, Format.assembled?_eq hopens hne,
        (read_expression hopens hne).trans hpattern, herror⟩

/-- Groups that a format brings itself come behind those of its tokens: the last one of them is
taken for the modifier. -/
theorem CalVer.of_aligned_spliced :
    (∃ format, Format.read "YYYY.MM.(a)(b)" = .ok format ∧ format.Aligned) ∧
      CalVer.inTurn "YYYY.MM.(a)(b)" "2024.3.ab" =
        .ok ⟨"YYYY.MM.(a)(b)", some "2024", some "3", none, none, none, none, some "b"⟩ ∧
      ∃ error, CalVer.inTurn "YYYY.(" "2024.1" = .error (.version error) := by
  obtain ⟨haligned, hversion⟩ := CalVer.of_aligned "YYYY.MM.(a)(b)"
  have hread : Format.read "YYYY.MM.(a)(b)" = .ok ⟨"YYYY.MM.(a)(b)".toList,
      [⟨.fullYear, some '.'⟩, ⟨.month, some '.'⟩], "(a)(b)".toList⟩ := by decide
  have hof : CalVer.of "YYYY.MM.(a)(b)" "2024.3.ab" =
      .ok ⟨"YYYY.MM.(a)(b)", some "2024", some "3", none, none, none, none, some "b"⟩ := by
    decide +kernel
  have hbad : CalVer.of "YYYY.(" "2024.1" = .error (.badPattern .malformed) := by
    decide +kernel
  refine ⟨⟨_, hread, haligned _ hread⟩, ?_, .badPattern .malformed, ?_⟩
  · rw [(hversion "2024.3.ab").1, hof]
    rfl
  · rw [((CalVer.of_aligned "YYYY.(").2 "2024.1").1, hbad]
    rfl

end ReleaseRunner.Version
