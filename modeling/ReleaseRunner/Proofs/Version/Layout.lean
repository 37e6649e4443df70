import ReleaseRunner.Proofs.Text.Search
import ReleaseRunner.Proofs.Version.Numeral
import ReleaseRunner.Version.Format

/-!
# Documented formats

A `Layout` is a format as it is documented: a year, then perhaps a month with or without a
day, or a week, then counters, then perhaps a modifier, each after a separator of its own. The
main statement says what a format's text is read as (`read_layout`).

Tokens are taken off the front one after the other, each with the separator behind it. So the
lemmas speak of what stands behind a token, which is either a field or the modifier.
-/

namespace ReleaseRunner.Version

open Pattern Text

/-! ## Layouts -/

/-- The characters that part the fields. -/
inductive Separator where
  | point
  | underscore
  | hyphen
deriving Repr, DecidableEq

/-- The character of a separator. -/
def Separator.char : Separator → Char
  | point => '.'
  | underscore => '_'
  | hyphen => '-'

/-- The forms of a year. -/
inductive YearForm where
  | full
  | short
  | padded
deriving Repr, DecidableEq

/-- The token of a year's form. -/
def YearForm.token : YearForm → Token
  | full => .fullYear
  | short => .shortYear
  | padded => .paddedYear

/-- The year's token stands for the year. -/
@[simp] theorem YearForm.slot_token (form : YearForm) : form.token.slot = .year := by
  cases form <;> rfl

/-- What follows the year: nothing, a month, a month and a day, or a week. Each has its
separator, and may be padded. -/
inductive DateForm where
  | none
  | month (separator : Separator) (padded : Bool)
  | monthAndDay (separator : Separator) (padded : Bool) (separator' : Separator) (padded' : Bool)
  | week (separator : Separator) (padded : Bool)
deriving Repr, DecidableEq

/-- A token that stands behind a separator. -/
abbrev Field := Separator × Token

/-- The fields of a date. -/
def DateForm.fields : DateForm → List Field
  | none => []
  | month s padded => [(s, if padded then .paddedMonth else .month)]
  | monthAndDay s padded s' padded' =>
    [(s, if padded then .paddedMonth else .month), (s', if padded' then .paddedDay else .day)]
  | week s padded => [(s, if padded then .paddedWeek else .week)]

/-- How a format ends: without a modifier, with one, or with one that may be left out together
with its separator. -/
inductive ModifierForm where
  | none
  | required (separator : Separator)
  | optional (separator : Separator)
deriving Repr, DecidableEq

namespace ModifierForm

/-- The end of a format's text. -/
def text : ModifierForm → List Char
  | none => []
  | required s => s.char :: "MODIFIER".toList
  | optional s => '[' :: s.char :: "MODIFIER]".toList

/-- The separator behind the last token. -/
def separator? : ModifierForm → Option Char
  | none => .none
  | required s => some s.char
  | optional s => some s.char

/-- What remains of the text once the tokens were taken. -/
def tail : ModifierForm → List Char
  | none => []
  | required _ => "MODIFIER".toList
  | optional s => s.char :: "MODIFIER]".toList

end ModifierForm

/-- A format as it is documented. -/
structure Layout where
  year : YearForm
  date : DateForm
  minor : Option Separator
  micro : Option Separator
  modifier : ModifierForm
deriving Repr, DecidableEq

namespace Layout

/-- The counters. -/
def counters (L : Layout) : List Field :=
  L.minor.toList.map (·, Token.minor) ++ L.micro.toList.map (·, Token.micro)

/-- The fields behind the year. -/
def fields (L : Layout) : List Field := L.date.fields ++ L.counters

/-- The tokens, the year first. -/
def tokens (L : Layout) : List Token := L.year.token :: L.fields.map (·.2)

end Layout

/-- The text of fields and of what ends the format. -/
def fieldsText (m : ModifierForm) : List Field → List Char
  | [] => m.text
  | (s, t) :: fs => s.char :: (t.text.toList ++ fieldsText m fs)

/-- The text of a layout. -/
def Layout.text (L : Layout) : List Char :=
  L.year.token.text.toList ++ fieldsText L.modifier L.fields

/-! ## Taking tokens -/

/-- The separator behind a token. -/
def separatorBehind (m : ModifierForm) : List Field → Option Char
  | [] => m.separator?
  | (s, _) :: _ => some s.char

/-- What remains once a token was taken with the separator behind it. -/
def textBehind (m : ModifierForm) : List Field → List Char
  | [] => m.tail
  | (_, t) :: fs => t.text.toList ++ fieldsText m fs

/-- The tokens of fields in front of others, each with the separator behind it. -/
def fieldElements (m : ModifierForm) (others : List Field) : List Field → List Element
  | [] => []
  | (_, t) :: fs => ⟨t, separatorBehind m (fs ++ others)⟩ :: fieldElements m others fs

/-- The tokens of a layout, each with the separator behind it. -/
def Layout.elements (L : Layout) : List Element :=
  ⟨L.year.token, separatorBehind L.modifier L.fields⟩ :: fieldElements L.modifier [] L.fields

private theorem token_fieldElements (m : ModifierForm) (others fs : List Field) :
    (fieldElements m others fs).map (·.token) = fs.map (·.2) := by
  induction fs with
  | nil => rfl
  | cons f fs ih => rw [fieldElements, List.map_cons, List.map_cons, ih]

/-- The elements of a layout are its tokens. -/
theorem Layout.token_elements (L : Layout) : L.elements.map (·.token) = L.tokens := by
  unfold Layout.elements Layout.tokens
  rw [List.map_cons, token_fieldElements]

theorem Layout.length_elements (L : Layout) : L.elements.length = L.tokens.length := by
  rw [← L.token_elements, List.length_map]

/-- No token has a delimiter in it. -/
private theorem isDelimiter_of_mem_text (t : Token) :
    ∀ c ∈ t.text.toList, isDelimiter c = false := by
  have hall : t.text.toList.all (fun c => !isDelimiter c) = true := by
    cases t <;> decide
  intro c hc
  simpa using List.all_eq_true.mp hall c hc

theorem isDelimiter_separator (s : Separator) : isDelimiter s.char = true := by
  cases s <;> rfl

theorem Token.mem_all (t : Token) : t ∈ Token.all := by
  cases t <;> decide

private theorem ofText?_text (t : Token) : Token.ofText? t.text.toList = some t := by
  cases t <;> decide

/-- A word is taken up to the delimiter behind it. -/
private theorem takeText_append {word rest : List Char} (hword : ∀ c ∈ word, isDelimiter c = false)
    (hrest : ∀ c ∈ rest.head?, isDelimiter c = true) :
    takeText (word ++ rest) = (word, (takeText rest).2) := by
  have hall : ∀ c ∈ word, (!isDelimiter c) = true := by
    intro c hc
    rw [hword c hc]
    rfl
  have htake : (word ++ rest).takeWhile (!isDelimiter ·) = word := by
    rw [List.takeWhile_append_of_pos hall]
    cases rest with
    | nil => simp
    | cons c rest => simp [hrest c rfl]
  have hdrop : (word ++ rest).dropWhile (!isDelimiter ·) = rest := by
    rw [List.dropWhile_append_of_pos hall]
    cases rest with
    | nil => rfl
    | cons c rest => simp [hrest c rfl]
  -- without the word there is nothing in front of the delimiter
  have hself : rest.dropWhile (!isDelimiter ·) = rest := by
    cases rest with
    | nil => rfl
    | cons c rest => simp [hrest c rfl]
  unfold takeText
  rw [htake, hdrop, hself]
  dsimp only
  split <;> rfl

/-- Behind a token there is a delimiter or nothing. -/
private theorem isDelimiter_of_mem_head (m : ModifierForm) (fs : List Field) :
    ∀ c ∈ (fieldsText m fs).head?, isDelimiter c = true := by
  intro c hc
  cases fs with
  | nil =>
    cases m with
    | none => cases hc
    | required s =>
      cases hc
      exact isDelimiter_separator s
    | optional s =>
      cases hc
      rfl
  | cons f fs =>
    cases hc
    exact isDelimiter_separator f.1

private theorem takeText_token (t : Token) (m : ModifierForm) (fs : List Field) :
    takeText (t.text.toList ++ fieldsText m fs) =
      (t.text.toList, separatorBehind m fs, textBehind m fs) := by
  rw [takeText_append (isDelimiter_of_mem_text t) (isDelimiter_of_mem_head m fs)]
  cases fs with
  | nil =>
    cases m with
    | none => rfl
    | required s => cases s <;> rfl
    | optional s => rfl
  | cons f fs =>
    obtain ⟨s, t'⟩ := f
    cases s <;> rfl

theorem takeToken?_token (slots : List Slot) (t : Token) (m : ModifierForm) (fs : List Field) :
    takeToken? slots (t.text.toList ++ fieldsText m fs) =
      if slots.contains t.slot then some (⟨t, separatorBehind m fs⟩, textBehind m fs)
      else none := by
  unfold takeToken?
  rw [takeText_token]
  dsimp only
  rw [ofText?_text]

/-- The modifier is no token. -/
theorem takeToken?_tail (slots : List Slot) (m : ModifierForm) :
    takeToken? slots m.tail = none := by
  have hword : Token.ofText? (takeText m.tail).1 = none := by
    cases m with
    | none => decide
    | required s => show Token.ofText? (takeText "MODIFIER".toList).1 = none; decide
    | optional s => cases s <;> decide
  unfold takeToken?
  dsimp only
  rw [hword]

/-- What is taken from the text behind a token. -/
theorem takeToken?_behind (slots : List Slot) (m : ModifierForm) (fs : List Field) :
    takeToken? slots (textBehind m fs) = match fs with
      | [] => none
      | (_, t) :: fs =>
        if slots.contains t.slot then some (⟨t, separatorBehind m fs⟩, textBehind m fs)
        else none := by
  cases fs with
  | nil => exact takeToken?_tail slots m
  | cons f fs => exact takeToken?_token slots f.2 m fs

theorem takeToken?_counters (L : Layout) {slots : List Slot}
    (hminor : slots.contains .minor = false) (hmicro : slots.contains .micro = false) :
    takeToken? slots (textBehind L.modifier L.counters) = none := by
  rw [takeToken?_behind]
  unfold Layout.counters
  -- whichever counter comes first, the slots do not hold it
  cases L.minor with
  | some s => simp only [Option.toList_some, List.map_cons, List.cons_append, Token.slot, hminor,
      Bool.false_eq_true, if_false]
  | none =>
    cases L.micro with
    | some s => simp only [Option.toList_none, Option.toList_some, List.map_nil, List.map_cons,
        List.nil_append, Token.slot, hmicro, Bool.false_eq_true, if_false]
    | none => rfl

/-! ## Tokens that are not there -/

/-- The slots whose tokens are looked for all over a format. -/
def dateSlots : List Slot := [.month, .week, .day]

theorem token_ne_nil (t : Token) : t.text.toList ≠ [] := by
  cases t <;> decide

theorem not_mem_token {c : Char} (h : isDelimiter c = true) (t : Token) : c ∉ t.text.toList := by
  intro hmem
  rw [isDelimiter_of_mem_text t c hmem] at h
  cases h

/-- A token of a date is not hidden in another token. -/
private theorem not_occursIn_token {token t : Token} (h : token.slot ∈ dateSlots)
    (hother : t.slot ≠ token.slot) : occursIn token.text.toList t.text.toList = false := by
  revert h hother
  cases token <;> cases t <;> decide

/-- No token is hidden in the modifier. -/
theorem not_occursIn_modifier (t : Token) (m : ModifierForm) :
    occursIn t.text.toList m.text = false := by
  cases m with
  | none => cases t <;> decide
  | required s => cases t <;> cases s <;> decide
  | optional s => cases t <;> cases s <;> decide

private theorem not_occursIn_fieldsText {token : Token} (m : ModifierForm) {fs : List Field}
    (h : token.slot ∈ dateSlots) (hother : ∀ f ∈ fs, f.2.slot ≠ token.slot) :
    occursIn token.text.toList (fieldsText m fs) = false := by
  induction fs with
  | nil => exact not_occursIn_modifier token m
  | cons f fs ih =>
    obtain ⟨s, t⟩ := f
    have htoken := not_occursIn_token h (hother (s, t) List.mem_cons_self)
    have hrest := ih fun f hf => hother f (List.mem_cons_of_mem _ hf)
    -- a token neither begins with a separator nor lies across one
    have hhead : ∀ c ∈ (fieldsText m fs).head?, c ∉ token.text.toList := fun c hc =>
      not_mem_token (isDelimiter_of_mem_head m fs c hc) token
    exact not_occursIn_cons (token_ne_nil token) (not_mem_token (isDelimiter_separator s) token)
      (not_occursIn_append hhead htoken hrest)

/-- A layout mentions no month, week or day but for its own tokens. -/
theorem mentions_layout {L : Layout} {slot : Slot} (h : slot ∈ dateSlots)
    (hother : ∀ f ∈ L.fields, f.2.slot ≠ slot) : mentions L.text slot = false := by
  unfold mentions
  rw [List.any_eq_false]
  intro token _ hfound
  rw [Bool.and_eq_true, beq_iff_eq] at hfound
  obtain ⟨rfl, hfound⟩ := hfound
  -- the year stands in front and is none of the slots that are looked for
  have hyear : L.year.token.slot ≠ token.slot := by
    intro hsame
    rw [← hsame] at h
    cases hform : L.year <;> rw [hform] at h <;> simp [YearForm.token, Token.slot, dateSlots] at h
  have hhead : ∀ c ∈ (fieldsText L.modifier L.fields).head?, c ∉ token.text.toList := fun c hc =>
    not_mem_token (isDelimiter_of_mem_head _ _ c hc) token
  have hnone : occursIn token.text.toList L.text = false :=
    not_occursIn_append hhead (not_occursIn_token h hyear)
      (not_occursIn_fieldsText L.modifier h hother)
  rw [hnone] at hfound
  cases hfound

/-! ## Reading a layout -/

section
variable (L : Layout)

private theorem takeToken?_year :
    takeToken? [.year] L.text =
      some (⟨L.year.token, separatorBehind L.modifier L.fields⟩,
        textBehind L.modifier L.fields) := by
  unfold Layout.text
  rw [takeToken?_token, if_pos]
  cases L.year <;> rfl

/-- No counter is a month, a week or a day. -/
theorem slot_ne_of_mem_counters {slot : Slot} (h : slot ∈ dateSlots) :
    ∀ f ∈ L.counters, f.2.slot ≠ slot := by
  intro f hf hslot
  have hcounter : f.2.slot = .minor ∨ f.2.slot = .micro := by
    unfold Layout.counters at hf
    rcases List.mem_append.mp hf with hf | hf
    · obtain ⟨s, -, rfl⟩ := List.mem_map.mp hf
      exact .inl rfl
    · obtain ⟨s, -, rfl⟩ := List.mem_map.mp hf
      exact .inr rfl
  rw [← hslot] at h
  rcases hcounter with hminor | hmicro
  · rw [hminor] at h
    revert h
    decide
  · rw [hmicro] at h
    revert h
    decide

theorem readDate_layout :
    readDate L.text (textBehind L.modifier L.fields) =
      .ok (fieldElements L.modifier L.counters L.date.fields,
        textBehind L.modifier L.counters) := by
  have hcounters : ∀ slot ∈ dateSlots, (∀ f ∈ L.date.fields, f.2.slot ≠ slot) →
      mentions L.text slot = false := by
    intro slot hslot hdate
    refine mentions_layout hslot fun f hf => ?_
    rcases List.mem_append.mp hf with hf | hf
    · exact hdate f hf
    · exact slot_ne_of_mem_counters L hslot f hf
  unfold readDate Layout.fields
  -- a date is only refused for tokens of another kind of date, and there are none
  cases hform : L.date with
  | none =>
    rw [DateForm.fields, List.nil_append, takeToken?_counters L rfl rfl]
    rfl
  | month s padded =>
    rw [hform] at hcounters
    have hweek := hcounters .week (by decide)
      (by cases padded <;> simp [DateForm.fields, Token.slot])
    have hday : takeToken? [.day] (textBehind L.modifier L.counters) = none :=
      takeToken?_counters L rfl rfl
    rw [DateForm.fields, List.cons_append, List.nil_append, takeToken?_behind]
    cases padded <;> simp [Token.slot, hweek, hday, fieldElements]
  | monthAndDay s padded s' padded' =>
    rw [hform] at hcounters
    have hweek := hcounters .week (by decide)
      (by cases padded <;> cases padded' <;> simp [DateForm.fields, Token.slot])
    rw [DateForm.fields, List.cons_append, List.cons_append, List.nil_append, takeToken?_behind]
    cases padded <;> cases padded' <;>
      simp [Token.slot, hweek, takeToken?_behind, fieldElements]
  | week s padded =>
    rw [hform] at hcounters
    have hmonth := hcounters .month (by decide)
      (by cases padded <;> simp [DateForm.fields, Token.slot])
    have hday := hcounters .day (by decide) (by cases padded <;> simp [DateForm.fields, Token.slot])
    rw [DateForm.fields, List.cons_append, List.nil_append, takeToken?_behind]
    cases padded <;> simp [Token.slot, hmonth, hday, fieldElements]

theorem readCounters_layout :
    readCounters (textBehind L.modifier L.counters) =
      .ok (fieldElements L.modifier [] L.counters, L.modifier.tail) := by
  unfold readCounters Layout.counters
  rw [takeToken?_behind]
  -- no counter comes twice or in front of its turn
  cases L.minor with
  | none =>
    cases L.micro with
    | none => rfl
    | some s => simp [Token.slot, textBehind, takeToken?_tail, fieldElements]
  | some s =>
    cases L.micro with
    | none => simp [Token.slot, textBehind, takeToken?_tail, fieldElements]
    | some s' => simp [Token.slot, textBehind, takeToken?_token, fieldElements]

end

private theorem fieldElements_append (m : ModifierForm) (fs gs : List Field) :
    fieldElements m [] (fs ++ gs) = fieldElements m gs fs ++ fieldElements m [] gs := by
  induction fs with
  | nil => rfl
  | cons f fs ih =>
    rw [List.cons_append, fieldElements, fieldElements, ih, List.append_nil]
    rfl

/-- A documented format is read as its tokens and the end that is not a token. -/
theorem read_layout {L : Layout} {fmt : String} (h : stripped fmt.toList = L.text) :
    Format.read fmt = .ok ⟨L.text, L.elements, L.modifier.tail⟩ := by
  have helements : readElements L.text = .ok (L.elements, L.modifier.tail) := by
    unfold readElements
    rw [takeToken?_year]
    dsimp only
    rw [readDate_layout]
    show (readCounters (textBehind L.modifier L.counters) >>= _) = _
    rw [readCounters_layout]
    unfold Layout.elements Layout.fields
    rw [fieldElements_append]
    rfl
  unfold Format.read
  rw [h]
  dsimp only
  rw [helements]

end ReleaseRunner.Version
