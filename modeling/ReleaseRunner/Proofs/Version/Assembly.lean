import Mathlib
import ReleaseRunner.Proofs.Pattern.Reading
import ReleaseRunner.Proofs.Version.Refusal

/-!
# The expression of a format

The pattern of a format is written out piece by piece, and the expression is read as a whole. The
model of a format takes a shorter way: it knows what the tokens in front become, and reads no more
than what comes after them. The main statement is that both ways lead to the same pattern
(`read_expression`).

While a format is taken apart its pieces are pushed on a list. An optional modifier takes the piece
in front of it out again, which is meant to be a separator. It always is one
(`popBeforeLast?_pushed`).
-/

namespace ReleaseRunner.Version

open Pattern

/-! ## Pieces -/

/-- A piece of a format, as it is pushed. -/
inductive Piece where
  | token (t : Token)
  | separator (c : Char)
  | tail (text : List Char)

namespace Piece

/-- The text of a piece. A separator is written at once. -/
def text : Piece → List Char
  | token t => t.text.toList
  | separator c => Format.separatorWritten c
  | tail text => text

/-- The token that a piece is. -/
def token? : Piece → Option Token
  | token t => some t
  | _ => none

end Piece

/-- The item that is last but one, and the list without it. -/
def popBeforeLast? {α : Type} (items : List α) : Option (α × List α) :=
  match items.reverse with
  | last :: popped :: others => some (popped, (last :: others).reverse)
  | _ => none

/-- The pieces of a token with its separator. -/
def Element.pieces (e : Element) : List Piece :=
  .token e.token :: e.separator.toList.map .separator

/-- The texts of these pieces. -/
def Element.texts (e : Element) : List (List Char) :=
  e.token.text.toList :: e.separator.toList.map Format.separatorWritten

namespace Format

/-- The pieces in the order in which they are pushed. -/
def pushed (format : Format) : List Piece :=
  format.elements.flatMap Element.pieces ++
    (if format.tail.isEmpty then [] else [.tail format.tail])

/-- The last piece ends with an optional modifier. -/
def pops (format : Format) : Bool :=
  format.pushed.getLast?.any fun last => optionalEnd.isSuffixOf last.text

/-- The pieces once all of them were pushed. If the last one ends with an optional modifier, the one
in front of it is taken out and becomes a part of it; there may be none. -/
def assembled? (format : Format) : Option (List (List Char)) :=
  if format.pops then
    (popBeforeLast? format.pushed).map fun (popped, others) =>
      (others.dropLast.map Piece.text) ++
        ["(?:".toList ++ popped.text ++ modifierWritten.toList ++ ")?".toList]
  else some (format.pushed.map Piece.text)

end Format

/-- A piece as it is written in a pattern: a token and a modifier give their forms, and all else
stands for itself. -/
def pieceWritten (piece : List Char) : List Char :=
  if piece = "[MODIFIER]".toList then modifierWritten.toList ++ ")?".toList
  else Format.tailWritten piece

/-- The expression of pieces, which is held to the whole of a text. -/
def expression (pieces : List (List Char)) : List Char :=
  '^' :: pieces.flatMap pieceWritten ++ ['$']

/-! ## What is pushed -/

/-- The tokens of a format that was read stand in their documented order in front of its text. -/
theorem Format.opens_of_read {fmt : String} {format : Format} (h : Format.read fmt = .ok format) :
    (∃ L : Layout, format.elements.map (·.token) = L.tokens) ∧
      Opens format.elements format.text format.tail := by
  have hread := readElements_read (Text.stripped fmt.toList)
  unfold Format.read at h
  dsimp only at h
  generalize readElements (Text.stripped fmt.toList) = result at hread h
  cases hread with
  | refused => cases h
  | read L _ htokens _ hopens =>
    cases h
    exact ⟨⟨L, htokens⟩, hopens⟩

/-- Where there is a tail, there is a separator after the last token. -/
theorem Opens.separator {es : List Element} {text tail : List Char} (h : Opens es text tail)
    (htail : tail ≠ []) : ∀ e ∈ es, ∃ c, e.separator = some c := by
  induction h with
  | nil => simp
  | last t => exact absurd rfl htail
  | cons hc _ ih =>
    rw [List.forall_mem_cons]
    exact ⟨⟨_, rfl⟩, ih htail⟩

/-- No text of a token starts with a character that does not stand for itself. -/
theorem head_token (t : Token) : ∃ c rest, t.text.toList = c :: rest ∧ c ∉ marks := by
  cases t with
  | _ => exact ⟨_, _, rfl, by decide⟩

/-- Tokens that are there begin with a character that stands for itself. -/
theorem Opens.head {e : Element} {es : List Element} {text tail : List Char}
    (h : Opens (e :: es) text tail) : ∃ c rest, text = c :: rest ∧ c ∉ marks := by
  cases h with
  | last t => exact head_token t
  | @cons t d _ text _ hd _ =>
    obtain ⟨c, rest, htoken, hc⟩ := head_token t
    exact ⟨c, rest ++ d :: text, by rw [htoken]; rfl, hc⟩

/-- A separator between two tokens is a point, or a character that stands for itself. -/
theorem Opens.between {e e' : Element} {es : List Element} {text tail : List Char}
    (h : Opens (e :: e' :: es) text tail) :
    ∃ c rest, e.separator = some c ∧ (c = '.' ∨ c ∉ marks) ∧ Opens (e' :: es) rest tail := by
  cases h with
  | @cons t d _ text _ hd hrest =>
    refine ⟨_, text, rfl, ?_, hrest⟩
    unfold separatorAt
    split
    · -- behind a bracket it is the first character of the next token
      obtain ⟨c, rest, rfl, hc⟩ := hrest.head
      exact .inr hc
    · next hbracket =>
      simp only [isDelimiter, Bool.or_eq_true, beq_iff_eq] at hd
      rcases hd with ((rfl | rfl) | rfl) | rfl
      · exact .inl rfl
      · exact .inr (by decide)
      · exact .inr (by decide)
      · exact absurd rfl hbracket

/-! ## The separator that is taken out -/

theorem popBeforeLast?_concat {α : Type} (items : List α) (popped last : α) :
    popBeforeLast? (items ++ [popped, last]) = some (popped, items ++ [last]) := by
  unfold popBeforeLast?
  simp

/-- The tokens of pieces. -/
theorem filterMap_token?_pieces (es : List Element) :
    (es.flatMap Element.pieces).filterMap Piece.token? = es.map (·.token) := by
  induction es with
  | nil => rfl
  | cons e es ih =>
    rw [List.flatMap_cons, List.filterMap_append, ih]
    obtain ⟨t, _ | c⟩ := e <;> rfl

theorem not_optionalEnd {e : Element} {piece : Piece} (h : piece ∈ e.pieces) :
    Format.optionalEnd.isSuffixOf piece.text = false := by
  have hshort : ∀ {text : List Char}, text.length < 9 →
      Format.optionalEnd.isSuffixOf text = false := by
    intro text hlength
    rw [Bool.eq_false_iff]
    intro hsuffix
    have hle := (List.isSuffixOf_iff_suffix.mp hsuffix).length_le
    have hend : Format.optionalEnd.length = 9 := by decide
    omega
  rcases List.mem_cons.mp h with rfl | h
  · refine hshort ?_
    cases e.token <;> decide
  · obtain ⟨c, -, rfl⟩ := List.mem_map.mp h
    refine hshort ?_
    show (Format.separatorWritten c).length < 9
    unfold Format.separatorWritten
    split <;> simp

namespace Format

variable {format : Format} {init : List Element} {t : Token} {c : Char}

/-- Only a tail can end with an optional modifier. -/
theorem pops_eq (format : Format) : format.pops = format.endsOptional := by
  unfold pops pushed endsOptional
  cases htail : format.tail with
  | nil =>
    rw [List.isEmpty_nil, if_pos rfl, List.append_nil]
    cases hlast : (format.elements.flatMap Element.pieces).getLast? with
    | none => rfl
    | some last =>
      obtain ⟨e, -, hmem⟩ := List.mem_flatMap.mp (List.mem_of_getLast? hlast)
      exact not_optionalEnd hmem
  | cons d rest =>
    rw [List.isEmpty_cons, if_neg Bool.false_ne_true, List.getLast?_concat]
    rfl

theorem tail_ne_nil (h : format.endsOptional = true) : format.tail ≠ [] := by
  intro hnil
  unfold endsOptional at h
  rw [hnil] at h
  cases h

/-- A tail has a separator between the last token and itself. -/
theorem exists_last (hopens : Opens format.elements format.text format.tail)
    (hne : format.elements ≠ []) (htail : format.tail ≠ []) :
    ∃ init t c, format.elements = init ++ [⟨t, some c⟩] := by
  obtain ⟨init, ⟨t, separator⟩, hlast⟩ := (List.eq_nil_or_concat _).resolve_left hne
  rw [List.concat_eq_append] at hlast
  obtain ⟨c, hc⟩ := hopens.separator htail ⟨t, separator⟩ (by simp [hlast])
  exact ⟨init, t, c, by rw [hlast, ← hc]⟩

/-- In front of a tail it is the separator that is taken out. -/
theorem popBeforeLast?_pushed (hlast : format.elements = init ++ [⟨t, some c⟩])
    (htail : format.tail ≠ []) :
    popBeforeLast? format.pushed =
      some (.separator c, init.flatMap Element.pieces ++ [.token t] ++ [.tail format.tail]) := by
  have hpushed : format.pushed = (init.flatMap Element.pieces ++ [.token t]) ++
      [.separator c, .tail format.tail] := by
    unfold pushed
    rw [hlast, if_neg (by simpa using htail), List.flatMap_append, List.append_assoc,
      List.append_assoc]
    rfl
  rw [hpushed, popBeforeLast?_concat]

theorem map_text_pieces (es : List Element) :
    (es.flatMap Element.pieces).map Piece.text = es.flatMap Element.texts := by
  rw [List.map_flatMap]
  congr 1
  funext e
  unfold Element.pieces Element.texts
  rw [List.map_cons, List.map_map]
  rfl

/-- Without the separator after it the last token is the last piece in front of a tail. -/
theorem dropLast_texts (init : List Element) (t : Token) (c : Char) :
    ((init ++ [(⟨t, some c⟩ : Element)]).flatMap Element.texts).dropLast =
      init.flatMap Element.texts ++ [t.text.toList] := by
  rw [List.flatMap_append, List.dropLast_append_of_ne_nil (by simp [Element.texts])]
  rfl

theorem pieces_eq (format : Format) : format.pieces =
    if format.endsOptional then
      (format.elements.flatMap Element.texts).dropLast ++ [format.optionalWritten]
    else if format.tail.isEmpty then format.elements.flatMap Element.texts
    else format.elements.flatMap Element.texts ++ [format.tail] :=
  rfl

/-- The pieces are always there. -/
theorem assembled?_eq (hopens : Opens format.elements format.text format.tail)
    (hne : format.elements ≠ []) : format.assembled? = some format.pieces := by
  rw [pieces_eq]
  unfold assembled?
  rw [pops_eq]
  cases hoptional : format.endsOptional with
  | true =>
    have htail := tail_ne_nil hoptional
    obtain ⟨init, t, c, hlast⟩ := exists_last hopens hne htail
    have hseparator : format.lastSeparator = separatorWritten c := by
      unfold lastSeparator
      rw [hlast, List.getLast?_concat]
    rw [if_pos rfl, if_pos rfl, popBeforeLast?_pushed hlast htail, Option.map_some]
    dsimp only
    rw [List.dropLast_concat, List.map_append, map_text_pieces, hlast, dropLast_texts]
    unfold optionalWritten
    rw [hseparator]
    rfl
  | false =>
    rw [if_neg Bool.false_ne_true, if_neg Bool.false_ne_true]
    unfold pushed
    split
    · rw [List.append_nil, map_text_pieces]
    · rw [List.map_append, map_text_pieces]
      rfl

end Format

/-! ## The expression -/

/-- A token with its separator, as it is written in a pattern. -/
def Element.written (e : Element) : List Char :=
  e.token.written.toList ++ e.separator.toList.flatMap Format.separatorWritten

/-- The tokens of a format with the separators between them, as they are written in a pattern. -/
def frontWritten : List Element → List Char
  | [] => []
  | [e] => e.token.written.toList
  | e :: es => e.written ++ frontWritten es

theorem frontWritten_concat (init : List Element) (e : Element) :
    frontWritten (init ++ [e]) = init.flatMap Element.written ++ e.token.written.toList := by
  induction init with
  | nil => rfl
  | cons e' init ih =>
    rw [List.flatMap_cons, List.append_assoc, ← ih]
    cases init <;> rfl

theorem pieceWritten_token (t : Token) : pieceWritten t.text.toList = t.written.toList := by
  cases t <;> decide

/-- What is no key of a form stands for itself. -/
theorem pieceWritten_of_ne {piece : List Char} (hoptional : piece ≠ "[MODIFIER]".toList)
    (hmodifier : piece ≠ "MODIFIER".toList) (htoken : ∀ t : Token, t.text.toList ≠ piece) :
    pieceWritten piece = piece := by
  have hnone : Token.ofText? piece = none :=
    List.find?_eq_none.mpr fun t _ => by simpa using htoken t
  unfold pieceWritten Format.tailWritten
  rw [if_neg hoptional, if_neg hmodifier, hnone]

theorem pieceWritten_separator (c : Char) :
    pieceWritten (Format.separatorWritten c) = Format.separatorWritten c := by
  unfold Format.separatorWritten
  split
  · decide
  · refine pieceWritten_of_ne (by simp) (by simp) fun t h => ?_
    cases t <;> simp [Token.text] at h

theorem pieceWritten_optional (format : Format) :
    pieceWritten format.optionalWritten = format.optionalWritten := by
  obtain ⟨rest, hrest⟩ : ∃ rest, format.optionalWritten = '(' :: rest := ⟨_, rfl⟩
  rw [hrest]
  refine pieceWritten_of_ne (by simp) (by simp) fun t h => ?_
  obtain ⟨c, rest', htoken, hc⟩ := head_token t
  rw [htoken] at h
  cases h
  exact hc (by decide)

/-- The pieces in front of a tail are written as tokens with their separators. -/
theorem flatMap_pieceWritten (es : List Element) :
    (es.flatMap Element.texts).flatMap pieceWritten = es.flatMap Element.written := by
  rw [List.flatMap_assoc]
  congr 1
  funext e
  obtain ⟨t, _ | c⟩ := e
  · simp [Element.texts, Element.written, pieceWritten_token]
  · simp [Element.texts, Element.written, pieceWritten_token, pieceWritten_separator]

/-- Without an optional modifier the tail is a piece as it is written behind the tokens. -/
theorem pieceWritten_tail {format : Format} (h : format.endsOptional = false) :
    pieceWritten format.tail = Format.tailWritten format.tail := by
  unfold pieceWritten
  refine if_neg fun htail => ?_
  unfold Format.endsOptional at h
  rw [htail] at h
  revert h
  decide

/-- The expression is written in two parts: the tokens with the separators between them, and all
that comes after the last token. -/
theorem expression_pieces {format : Format}
    (hopens : Opens format.elements format.text format.tail) (hne : format.elements ≠ []) :
    expression format.pieces = '^' :: (frontWritten format.elements ++ format.restWritten) := by
  unfold expression Format.restWritten
  rw [Format.pieces_eq, List.cons_append]
  congr 1
  cases hoptional : format.endsOptional with
  | true =>
    obtain ⟨init, t, c, hlast⟩ :=
      Format.exists_last hopens hne (Format.tail_ne_nil hoptional)
    rw [if_pos rfl, if_pos rfl, hlast, Format.dropLast_texts, frontWritten_concat,
      List.flatMap_append, List.flatMap_append, flatMap_pieceWritten, List.flatMap_singleton,
      List.flatMap_singleton, pieceWritten_token, pieceWritten_optional]
    simp only [List.append_assoc]
  | false =>
    have hfront : format.elements.flatMap Element.written =
        frontWritten format.elements ++ format.lastSeparator := by
      obtain ⟨init, e, hlast⟩ := (List.eq_nil_or_concat _).resolve_left hne
      unfold Format.lastSeparator
      rw [hlast, List.concat_eq_append, frontWritten_concat, List.getLast?_concat,
        List.flatMap_append, List.flatMap_singleton, Element.written, List.append_assoc]
      obtain ⟨t, _ | c⟩ := e
      · rfl
      · simp
    rw [if_neg Bool.false_ne_true, if_neg Bool.false_ne_true]
    split
    · next htail =>
      have hnone : Format.tailWritten format.tail = [] := by
        rw [List.isEmpty_iff.mp htail]
        decide
      rw [flatMap_pieceWritten, hfront, hnone]
      simp only [List.append_assoc, List.nil_append]
    · rw [List.flatMap_append, flatMap_pieceWritten, hfront, List.flatMap_singleton,
        pieceWritten_tail hoptional]
      simp only [List.append_assoc]

/-! ## Reading the expression -/

/-- The width of a token's form. -/
def Token.width (t : Token) : Width := t.pattern.width fun _ => ⟨0, none⟩

/-- Widths of groups that have the numbers behind the given one, the last group first. -/
def numbered (before : Nat) (widths : List Width) : List (Nat × Width) :=
  ((widths.zipIdx before).map fun (w, i) => (i + 1, w)).reverse

theorem numbered_cons (before : Nat) (w : Width) (widths : List Width) :
    numbered before (w :: widths) = numbered (before + 1) widths ++ [(before + 1, w)] := by
  unfold numbered
  rw [List.zipIdx_cons, List.map_cons, List.reverse_cons]

/-- The form of a token is read as a group. -/
theorem partsFrom_token (t : Token) (parts : List Part) (p : Progress) (rest : List Char) :
    partsFrom parts { p with rest := t.written.toList ++ rest } =
      partsFrom (⟨capture (p.groups + 1) t.pattern, .yes⟩ :: parts)
        { p with rest := rest, groups := p.groups + 1,
                 widths := (p.groups + 1, t.width) :: p.widths } := by
  have hgroup : ∀ fuel, 30 ≤ fuel →
      group? fuel {} { p with rest := t.written.toList.tail ++ rest } =
        .ok (some ⟨capture (p.groups + 1) t.pattern, .yes⟩,
          { p with rest := rest, groups := p.groups + 1,
                   widths := (p.groups + 1, t.width) :: p.widths }) := by
    intro fuel hfuel
    obtain ⟨fuel, rfl⟩ := Nat.exists_eq_add_of_le' hfuel
    cases t with
    | _ => cbv
  have hopen : t.written.toList = '(' :: t.written.toList.tail := by
    cases t <;> rfl
  rw [hopen, List.cons_append]
  exact partsFrom_group hgroup

/-- A separator between two tokens is read as the character that it is. -/
theorem partsFrom_separator {c : Char} (h : c = '.' ∨ c ∉ marks) (parts : List Part) (p : Progress)
    (rest : List Char) :
    partsFrom parts { p with rest := Format.separatorWritten c ++ rest } =
      partsFrom (⟨literal c, .yes⟩ :: parts) { p with rest := rest } := by
  unfold Format.separatorWritten
  split
  · next hpoint =>
    rw [beq_iff_eq.mp hpoint]
    exact partsFrom_point
  · next hother =>
    exact partsFrom_literal (h.resolve_left (mt beq_iff_eq.mpr hother))

/-- The tokens in front of an expression are read as the parts that are known of them. -/
theorem partsFrom_front {es : List Element} {text tail : List Char} (hopens : Opens es text tail)
    (hne : es ≠ []) (parts : List Part) (p : Progress) (rest : List Char) :
    partsFrom parts { p with rest := frontWritten es ++ rest } =
      partsFrom ((Format.knownParts (p.groups + 1) es).reverse ++ parts)
        { p with
          rest := rest
          groups := p.groups + es.length
          widths := numbered p.groups (es.map (·.token.width)) ++ p.widths } := by
  induction es generalizing text parts p with
  | nil => exact absurd rfl hne
  | cons e es ih =>
    cases es with
    | nil => exact partsFrom_token e.token parts p rest
    | cons e' es =>
      obtain ⟨c, text', hc, hplain, hopens'⟩ := hopens.between
      have hfront : frontWritten (e :: e' :: es) ++ rest = e.token.written.toList ++
          (Format.separatorWritten c ++ (frontWritten (e' :: es) ++ rest)) := by
        show e.written ++ _ ++ _ = _
        unfold Element.written
        rw [hc]
        simp
      have hknown : Format.knownParts (p.groups + 1) (e :: e' :: es) =
          ⟨capture (p.groups + 1) e.token.pattern, .yes⟩ :: ⟨literal c, .yes⟩ ::
            Format.knownParts (p.groups + 2) (e' :: es) := by
        show _ :: (e.separator.toList.map _) ++ _ = _
        rw [hc]
        rfl
      let p₁ : Progress := { p with
        groups := p.groups + 1
        widths := (p.groups + 1, e.token.width) :: p.widths }
      have hparts : (Format.knownParts (p₁.groups + 1) (e' :: es)).reverse ++
          (⟨literal c, .yes⟩ :: ⟨capture (p.groups + 1) e.token.pattern, .yes⟩ :: parts) =
            (Format.knownParts (p.groups + 1) (e :: e' :: es)).reverse ++ parts := by
        rw [hknown, List.reverse_cons, List.reverse_cons, List.append_assoc, List.append_assoc]
        rfl
      have hgroups : p₁.groups + (e' :: es).length = p.groups + (e :: e' :: es).length := by
        show p.groups + 1 + _ = _
        rw [List.length_cons (a := e), Nat.add_right_comm, Nat.add_assoc]
      have hwidths : numbered p₁.groups ((e' :: es).map (·.token.width)) ++ p₁.widths =
          numbered p.groups ((e :: e' :: es).map (·.token.width)) ++ p.widths := by
        rw [List.map_cons (a := e), numbered_cons, List.append_assoc]
        rfl
      rw [hfront, partsFrom_token]
      refine (partsFrom_separator hplain _ p₁ _).trans ((ih hopens' (by simp) _ p₁).trans ?_)
      rw [hparts, hgroups, hwidths]

/-- The expression of a format is read as the pattern of the format. -/
theorem read_expression {format : Format}
    (hopens : Opens format.elements format.text format.tail) (hne : format.elements ≠ []) :
    Pattern.read (expression format.pieces) = format.pattern := by
  rw [expression_pieces hopens hne]
  unfold Pattern.read Format.pattern
  refine readAfter_congr (by simp; omega) ?_
  have hfront := partsFrom_front hopens hne [⟨anchor .textStart, .anchor⟩] (.start [] [])
    format.restWritten
  refine (partsFrom_start.trans hfront).trans ?_
  rw [List.reverse_cons]
  show partsFrom _ { rest := format.restWritten, groups := 0 + _, widths := _ ++ [] } = _
  rw [Nat.zero_add, List.append_nil]
  unfold Progress.start
  rw [List.length_map]
  rfl

end ReleaseRunner.Version
