import Mathlib
import ReleaseRunner.Proofs.Version.Layout

/-!
# The pattern of a documented format

The tokens of a documented format become patterns with the separators between them. What comes
behind the last token is written out and read by the reader of patterns. The main statement is
that this gives the pattern one would expect, held to the whole of a text (`pattern_layout`).

The written end has no more than seven forms, one for each modifier and separator, so that the
reader is simply run on each of them, whatever parts come before.
-/

namespace ReleaseRunner.Version

open Pattern

/-! ## The patterns of tokens and modifiers -/

/-- The pattern of a modifier. -/
def modifierPattern : Pattern :=
  seq (char ⟨false, [.range 97 122, .range 65 90, .single 45]⟩ false false)
    (repeated (char ⟨false, [.range 48 57, .range 97 122, .range 65 90, .single 45]⟩ false false)
      0 none .greedy)

/-- The patterns of a token and of the fields behind it, the groups counted from the given
number. -/
def tokenPatterns : Nat → Token → List Field → List Pattern
  | i, t, [] => [capture i t.pattern]
  | i, t, (s, t') :: fs => capture i t.pattern :: literal s.char :: tokenPatterns (i + 1) t' fs

/-- The patterns of a modifier with its separator, where its group has the given number. -/
def ModifierForm.patterns (i : Nat) : ModifierForm → List Pattern
  | none => []
  | required s => [literal s.char, capture i modifierPattern]
  | optional s =>
    [repeated (seq (literal s.char) (capture i modifierPattern)) 0 (some 1) .greedy]

/-- How many groups a modifier has. -/
def ModifierForm.groups : ModifierForm → Nat
  | none => 0
  | required _ => 1
  | optional _ => 1

/-- The patterns of a layout. -/
def Layout.patterns (L : Layout) : List Pattern :=
  tokenPatterns 1 L.year.token L.fields ++ L.modifier.patterns (L.tokens.length + 1)

/-! ## What is known and what is written -/

private theorem knownParts_layout (m : ModifierForm) (fs : List Field) (i : Nat) (t : Token) :
    Format.knownParts i (⟨t, separatorBehind m fs⟩ :: fieldElements m [] fs) =
      (tokenPatterns i t fs).map (⟨·, .yes⟩) := by
  induction fs generalizing i t with
  | nil => rfl
  | cons f fs ih =>
    obtain ⟨s, t'⟩ := f
    rw [fieldElements, List.append_nil]
    unfold Format.knownParts
    rw [ih]
    rfl

private theorem getLast?_layout (m : ModifierForm) (fs : List Field) (t : Token) :
    ∃ t', (⟨t, separatorBehind m fs⟩ :: fieldElements m [] fs).getLast? =
      some ⟨t', m.separator?⟩ := by
  induction fs generalizing t with
  | nil => exact ⟨t, rfl⟩
  | cons f fs ih =>
    obtain ⟨s, t'⟩ := f
    rw [fieldElements, List.append_nil, List.getLast?_cons_cons]
    exact ih t'

/-- The separator of a modifier is the last one of the format. -/
private theorem lastSeparator_layout (L : Layout) :
    Format.lastSeparator ⟨L.text, L.elements, L.modifier.tail⟩ =
      match L.modifier.separator? with
      | some c => Format.separatorWritten c
      | none => [] := by
  unfold Format.lastSeparator Layout.elements
  obtain ⟨t, hlast⟩ := getLast?_layout L.modifier L.fields L.year.token
  rw [hlast]
  cases L.modifier <;> rfl

private theorem endsOptional_layout (L : Layout) :
    Format.endsOptional ⟨L.text, L.elements, L.modifier.tail⟩ =
      match L.modifier with
      | .optional _ => true
      | _ => false := by
  unfold Format.endsOptional
  cases L.modifier with
  | none => rfl
  | required s => rfl
  | optional s => cases s <;> rfl

/-- The end of a layout's pattern, as it is written. -/
def ModifierForm.written : ModifierForm → List Char
  | none => ['$']
  | required s => Format.separatorWritten s.char ++ modifierWritten.toList ++ ['$']
  | optional s =>
    "(?:".toList ++ Format.separatorWritten s.char ++ modifierWritten.toList ++ ")?".toList ++ ['$']

private theorem restWritten_layout (L : Layout) :
    Format.restWritten ⟨L.text, L.elements, L.modifier.tail⟩ = L.modifier.written := by
  unfold Format.restWritten Format.optionalWritten
  rw [endsOptional_layout, lastSeparator_layout]
  cases L.modifier with
  | none => rfl
  | required s => rfl
  | optional s => rfl

section
variable (parts : List Part) (widths : List Width)

/-- What the reader makes of the end of the text. -/
private theorem readAfter_end :
    readAfter parts widths ['$'] =
      .ok (ofParts (⟨anchor .beforeLastBreak, .anchor⟩ :: parts.reverse), widths.length) := by
  cbv

private theorem readAfter_required (s : Separator) :
    readAfter parts widths (ModifierForm.required s).written =
      .ok (ofParts (⟨anchor .beforeLastBreak, .anchor⟩ ::
        ⟨capture (widths.length + 1) modifierPattern, .yes⟩ :: ⟨literal s.char, .yes⟩ ::
        parts.reverse), widths.length + 1) := by
  -- the point is escaped, so the three separators are not read alike
  cases s with
  | point => cbv
  | underscore => cbv
  | hyphen => cbv

private theorem readAfter_optional (s : Separator) :
    readAfter parts widths (ModifierForm.optional s).written =
      .ok (ofParts (⟨anchor .beforeLastBreak, .anchor⟩ ::
        ⟨repeated (seq (literal s.char) (capture (widths.length + 1) modifierPattern)) 0 (some 1)
          .greedy, .repetition⟩ :: parts.reverse), widths.length + 1) := by
  cases s with
  | point => cbv
  | underscore => cbv
  | hyphen => cbv

/-- What the reader makes of the end behind parts that are known already. -/
private theorem readAfter_written (m : ModifierForm) :
    readAfter parts widths m.written =
      .ok (sequence (parts.map (·.pattern) ++ m.patterns (widths.length + 1) ++
        [anchor .beforeLastBreak]), widths.length + m.groups) := by
  cases m with
  | none =>
    show readAfter parts widths ['$'] = _
    rw [readAfter_end]
    simp [ofParts, ModifierForm.patterns, ModifierForm.groups]
  | required s =>
    rw [readAfter_required]
    simp [ofParts, ModifierForm.patterns, ModifierForm.groups]
  | optional s =>
    rw [readAfter_optional]
    simp [ofParts, ModifierForm.patterns, ModifierForm.groups]

end

/-- A documented format becomes the patterns of its tokens and of its modifier, held to the whole
of a text. -/
theorem pattern_layout (L : Layout) :
    Format.pattern ⟨L.text, L.elements, L.modifier.tail⟩ =
      .ok (wholeText L.patterns, L.tokens.length + L.modifier.groups) := by
  unfold Format.pattern
  rw [restWritten_layout, readAfter_written]
  have hknown : Format.knownParts 1 L.elements =
      (tokenPatterns 1 L.year.token L.fields).map (⟨·, .yes⟩) := knownParts_layout _ _ _ _
  simp [hknown, wholeText, Layout.patterns, L.length_elements, Function.comp_def]

end ReleaseRunner.Version
