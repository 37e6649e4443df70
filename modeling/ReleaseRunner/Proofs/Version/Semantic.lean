import ReleaseRunner.Proofs.Config.Validation
import ReleaseRunner.Proofs.Pattern.Regular
import ReleaseRunner.Proofs.Text.Blank
import ReleaseRunner.Proofs.Version.Grammar

/-!
# Which texts are semantic versions

The grammar of semantic versions is `IsSemantic`: three numbers, the identifiers of a pre-release
and those of a build, all in ASCII. The check of a configuration is more liberal, since behind the
first digit of a number, and in front of the first letter of an identifier of a pre-release, it
takes decimal digits of any script. The main statement is `versionProblem_semantic`, which says
exactly what is accepted, and that it is in the grammar exactly if all its digits are ASCII digits.
-/

namespace ReleaseRunner.Version

open Computability Config Pattern Text

/-! ## The grammar -/

/-- A number: ASCII digits without a leading nought. -/
def IsNumber (s : List Char) : Prop :=
  s ≠ [] ∧ (∀ c ∈ s, c.isDigit = true) ∧ (s.head? = some '0' → s = ['0'])

/-- An identifier: ASCII letters, digits and hyphens. -/
def IsIdentifier (s : List Char) : Prop :=
  s ≠ [] ∧ ∀ c ∈ s, c.isAlphanum = true ∨ c = '-'

/-- An identifier of a pre-release has no leading nought if it is made of digits alone. -/
def IsPreIdentifier (s : List Char) : Prop :=
  IsIdentifier s ∧ ((∀ c ∈ s, c.isDigit = true) → IsNumber s)

/-- One text or more of a kind, with points between them. -/
def Dotted (kind : List Char → Prop) (s : List Char) : Prop :=
  ∃ parts, parts ≠ [] ∧ (∀ part ∈ parts, kind part) ∧ s = ['.'].intercalate parts

/-- A text of a kind behind a mark, or nothing at all. -/
def Behind (mark : Char) (kind : List Char → Prop) (s : List Char) : Prop :=
  s = [] ∨ ∃ rest, kind rest ∧ s = mark :: rest

/-- Three numbers, perhaps the identifiers of a pre-release and perhaps those of a build, where it
is left open what counts as a number and as an identifier of a pre-release. -/
def IsVersion (number preIdentifier : List Char → Prop) (s : List Char) : Prop :=
  ∃ major minor patch pre build, number major ∧ number minor ∧ number patch ∧
    Behind '-' (Dotted preIdentifier) pre ∧ Behind '+' (Dotted IsIdentifier) build ∧
    s = major ++ '.' :: (minor ++ '.' :: (patch ++ (pre ++ build)))

/-- A semantic version. -/
def IsSemantic : List Char → Prop := IsVersion IsNumber IsPreIdentifier

/-- What is taken for an identifier of a pre-release: a counter, or ASCII letters, digits and
hyphens, where digits of any script may stand in front of the first that is no digit. -/
def IsLiberalIdentifier (s : List Char) : Prop :=
  IsCounter s ∨ ∃ digits c rest, (∀ d ∈ digits, isDigit d = true) ∧
    ((c.isAlphanum = true ∨ c = '-') ∧ c.isDigit = false) ∧
    (∀ d ∈ rest, d.isAlphanum = true ∨ d = '-') ∧ s = digits ++ c :: rest

/-- What is taken for a semantic version. -/
def IsLiberallySemantic : List Char → Prop := IsVersion IsCounter IsLiberalIdentifier

/-! ## What the pattern reads -/

namespace SemVer

/-- Characters of a set, so many at least. -/
theorem recognises_repeated_char (set : CharSet) (least : Nat) :
    Recognises (repeated (char set false false) least none .greedy)
      {s | least ≤ s.length ∧ ∀ c ∈ s, set.holds false false c = true} := by
  have hchar := Recognises.char set false false
  refine ⟨⟨rfl, by simp, hchar.plain, hchar.not_reads_nil ?_⟩, fun s g => ?_⟩
  · rintro ⟨c, -, hnil⟩
    cases hnil
  constructor
  · rintro ⟨n, hn, -, hrounds⟩
    obtain ⟨rfl, rfl, hall⟩ := times_char.mp hrounds
    exact ⟨rfl, hn, hall⟩
  · rintro ⟨rfl, hleast, hall⟩
    exact ⟨s.length, hleast, by simp, times_char.mpr ⟨rfl, rfl, hall⟩⟩

theorem recognises_number : Recognises number {s | IsCounter s} :=
  ⟨plain_token .minor, fun _ _ => reads_counter⟩

theorem recognises_preIdentifier : Recognises preIdentifier {s | IsLiberalIdentifier s} := by
  have hdigits := recognises_repeated_char ⟨false, [.kind .digit true]⟩ 0
  have hletter := Recognises.char ⟨false, [.range 0x61 0x7a, .range 0x41 0x5a, .single 0x2d]⟩
    false false
  have hmarks : Recognises (sequence [many mark]) _ := recognises_repeated_char _ 0
  have hlong : Recognises (sequence [many digit, letter, many mark]) _ :=
    hdigits.sequence_cons (hletter.sequence_cons hmarks)
  refine (recognises_number.either hlong).congr fun s => or_congr Iff.rfl ?_
  constructor
  · rintro ⟨digits, ⟨-, hdigits⟩, _, ⟨_, ⟨c, hc, rfl⟩, rest, ⟨-, hrest⟩, rfl⟩, rfl⟩
    refine ⟨digits, c, rest, fun d hd => ?_, (holds_letter c).mp hc, fun d hd => ?_, rfl⟩
    · rw [← holds_digit]
      exact hdigits d hd
    · exact (holds_alphanumeric d).mp (hrest d hd)
  · rintro ⟨digits, c, rest, hdigits, hc, hrest, rfl⟩
    refine ⟨digits, ⟨Nat.zero_le _, fun d hd => ?_⟩, [c] ++ rest,
      ⟨[c], ⟨c, (holds_letter c).mpr hc, rfl⟩, rest, ⟨Nat.zero_le _, fun d hd => ?_⟩, rfl⟩, rfl⟩
    · rw [holds_digit]
      exact hdigits d hd
    · exact (holds_alphanumeric d).mpr (hrest d hd)

theorem recognises_identifier : Recognises (several mark) {s | IsIdentifier s} := by
  refine (recognises_repeated_char
    ⟨false, [.range 0x30 0x39, .range 0x61 0x7a, .range 0x41 0x5a, .single 0x2d]⟩ 1).congr
      fun s => and_congr List.length_pos_iff ?_
  exact forall₂_congr fun c _ => holds_alphanumeric c

end SemVer

theorem isDotted_iff {kind : List Char → Prop} {s : List Char} :
    Dotted kind s ↔ ∃ (first : List Char) (parts : List (List Char)),
      kind first ∧ (∀ part ∈ parts, kind part) ∧ s = first ++ (parts.map ('.' :: ·)).flatten := by
  have hsame : ∀ (first : List Char) (parts : List (List Char)),
      ['.'].intercalate (first :: parts) = first ++ (parts.map ('.' :: ·)).flatten := by
    intro first parts
    induction parts generalizing first with
    | nil => simp
    | cons next parts ih =>
      rw [List.intercalate_cons_cons, ih, List.map_cons, List.flatten_cons, List.append_assoc]
      rfl
  constructor
  · rintro ⟨parts, hne, hkind, rfl⟩
    obtain ⟨first, rest, rfl⟩ := List.exists_cons_of_ne_nil hne
    obtain ⟨hfirst, hrest⟩ := List.forall_mem_cons.mp hkind
    exact ⟨first, rest, hfirst, hrest, hsame first rest⟩
  · rintro ⟨first, rest, hfirst, hrest, rfl⟩
    exact ⟨first :: rest, List.cons_ne_nil first rest, List.forall_mem_cons.mpr ⟨hfirst, hrest⟩,
      (hsame first rest).symm⟩

namespace SemVer

variable {p : Pattern} {kind : List Char → Prop}

private theorem not_mem_marked (c : Char) (l : Language Char) :
    [] ∉ (({[c]} : Language Char) * l) := by
  rintro ⟨_, rfl, rest, -, h⟩
  cases h

theorem recognises_dotted (hp : Recognises p {s | kind s}) :
    Recognises (dotted p) {s | Dotted kind s} := by
  have hpointed := (Recognises.literal '.').seq hp
  refine (hp.seq (hpointed.star (not_mem_marked '.' _))).congr
    fun s => Iff.trans ?_ isDotted_iff.symm
  constructor
  · rintro ⟨first, hfirst, _, ⟨pieces, rfl, hpieces⟩, rfl⟩
    -- what a piece has behind its point is of the kind
    have hpiece : ∀ piece ∈ pieces, '.' :: piece.tail = piece ∧ kind piece.tail := by
      intro piece hmem
      obtain ⟨_, rfl, part, hpart, rfl⟩ := hpieces piece hmem
      exact ⟨rfl, hpart⟩
    refine ⟨first, pieces.map List.tail, hfirst, ?_, ?_⟩
    · intro part hpart
      obtain ⟨piece, hmem, rfl⟩ := List.mem_map.mp hpart
      exact (hpiece piece hmem).2
    · have hsame : (pieces.map List.tail).map ('.' :: ·) = pieces := by
        rw [List.map_map]
        exact (List.map_congr_left fun piece hmem => (hpiece piece hmem).1).trans (List.map_id _)
      rw [hsame]
  · rintro ⟨first, parts, hfirst, hparts, rfl⟩
    refine ⟨first, hfirst, _, ⟨parts.map ('.' :: ·), rfl, ?_⟩, rfl⟩
    intro piece hmem
    obtain ⟨part, hpart, rfl⟩ := List.mem_map.mp hmem
    exact ⟨['.'], rfl, part, hparts part hpart, rfl⟩

/-- A part that may be missing, behind its mark. -/
theorem recognises_behind (c : Char) (hp : Recognises p {s | kind s}) :
    Recognises (maybe (seq (literal c) p)) {s | Behind c kind s} := by
  refine (((Recognises.literal c).seq hp).optional (not_mem_marked c _)).congr
    fun s => or_congr Iff.rfl ?_
  constructor
  · rintro ⟨_, rfl, rest, hrest, rfl⟩
    exact ⟨rest, hrest, rfl⟩
  · rintro ⟨rest, hrest, rfl⟩
    exact ⟨[c], rfl, rest, hrest, rfl⟩

/-- What is accepted, for a text that does not end with a line break. -/
theorem accepts_iff {text : List Char} (hend : ∀ s, text ≠ s ++ ['\n']) :
    accepts text = true ↔ IsLiberallySemantic text := by
  have hpoint := Recognises.literal '.'
  have hpre := recognises_behind '-' (recognises_dotted recognises_preIdentifier)
  have hbuild : Recognises (sequence [maybe (seq (literal '+') (dotted (several mark)))]) _ :=
    recognises_behind '+' (recognises_dotted recognises_identifier)
  have hwhole := recognises_number.sequence_cons (hpoint.sequence_cons
    (recognises_number.sequence_cons (hpoint.sequence_cons (recognises_number.sequence_cons
      (hpre.sequence_cons hbuild)))))
  refine (isSome_match?_iff hwhole hend 0).trans ?_
  constructor
  · rintro ⟨major, hmajor, _, ⟨_, rfl, _, ⟨minor, hminor, _, ⟨_, rfl, _, ⟨patch, hpatch, _,
      ⟨pre, hpre, build, hbuild, rfl⟩, rfl⟩, rfl⟩, rfl⟩, rfl⟩, rfl⟩
    exact ⟨major, minor, patch, pre, build, hmajor, hminor, hpatch, hpre, hbuild, rfl⟩
  · rintro ⟨major, minor, patch, pre, build, hmajor, hminor, hpatch, hpre, hbuild, rfl⟩
    exact ⟨major, hmajor, _, ⟨['.'], rfl, _, ⟨minor, hminor, _, ⟨['.'], rfl, _, ⟨patch, hpatch, _,
      ⟨pre, hpre, build, hbuild, rfl⟩, rfl⟩, rfl⟩, rfl⟩, rfl⟩, rfl⟩

end SemVer

/-! ## Versions with ASCII digits only -/

/-- All digits of the text are ASCII digits. -/
def AsciiDigits (s : List Char) : Prop :=
  ∀ c ∈ s, isDigit c = true → c.isDigit = true

/-- The rows of the other digits are behind ASCII. -/
theorem isDigit_of_alphanumeric {c : Char} (hc : c.isAlphanum = true ∨ c = '-')
    (hdigit : isDigit c = true) : c.isDigit = true := by
  obtain ⟨v, hv⟩ := Option.isSome_iff_exists.mp hdigit
  obtain ⟨z, hz, -⟩ := Option.map_eq_some_iff.mp hv
  have hrows : ∀ z ∈ noughts, z = 0x30 ∨ 0x660 ≤ z := by decide
  have hrow := hrows z (List.mem_of_find?_eq_some hz)
  have hrange := List.find?_some hz
  simp only [Bool.and_eq_true, decide_eq_true_eq] at hrange
  rw [alphanumeric_iff] at hc
  have hnot := not_isDigit_iff c
  cases hvalue : c.isDigit
  · have := hnot.mp hvalue
    omega
  · rfl

theorem IsIdentifier.asciiDigits {s : List Char} (h : IsIdentifier s) : AsciiDigits s :=
  fun c hc => isDigit_of_alphanumeric (h.2 c hc)

theorem isNumber_iff {s : List Char} : IsNumber s ↔ IsCounter s ∧ AsciiDigits s := by
  constructor
  · rintro ⟨hne, hdigits, hnought⟩
    refine ⟨?_, fun c hc _ => hdigits c hc⟩
    obtain ⟨c, rest, rfl⟩ := List.exists_cons_of_ne_nil hne
    obtain ⟨hc, hrest⟩ := List.forall_mem_cons.mp hdigits
    by_cases hzero : c = '0'
    · subst hzero
      exact .inl (hnought rfl)
    · have hfirst : c.toNat ≠ 48 := by
        intro h
        exact hzero (Char.toNat_inj.mp h)
      have hrange : 48 ≤ c.toNat ∧ c.toNat ≤ 57 := by
        simpa [Char.isDigit, UInt32.le_iff_toNat_le] using hc
      refine .inr ⟨c, rest, rfl, ?_, ?_, fun d hd => isDigit_of_ascii (hrest d hd)⟩
      · rw [Char.le_def, UInt32.le_iff_toNat_le]
        show 49 ≤ c.toNat
        omega
      · rw [Char.le_def, UInt32.le_iff_toNat_le]
        exact hrange.2
  · rintro ⟨hcounter, hascii⟩
    obtain ⟨hne, hdigits⟩ := hcounter.isDigit
    refine ⟨hne, fun c hc => hascii c hc (hdigits c hc), fun hhead => ?_⟩
    rcases hcounter with rfl | ⟨c, rest, rfl, hlow, -, -⟩
    · rfl
    · cases hhead
      exact absurd hlow (by decide)

theorem isPreIdentifier_iff {s : List Char} :
    IsPreIdentifier s ↔ IsLiberalIdentifier s ∧ AsciiDigits s := by
  constructor
  · rintro ⟨hidentifier, hnumber⟩
    refine ⟨?_, hidentifier.asciiDigits⟩
    by_cases hall : ∀ c ∈ s, c.isDigit = true
    · exact .inl (isNumber_iff.mp (hnumber hall)).1
    · -- the digits at the front are all those before the first other character
      have hrest : s.dropWhile Char.isDigit ≠ [] := by
        intro hnil
        exact hall (List.dropWhile_eq_nil_iff.mp hnil)
      obtain ⟨c, rest, hcons⟩ := List.exists_cons_of_ne_nil hrest
      have hsame : s = s.takeWhile Char.isDigit ++ c :: rest := by
        rw [← hcons, List.takeWhile_append_dropWhile]
      have hc : c.isDigit = false := by
        have hhead := List.head_dropWhile_not Char.isDigit hrest
        simpa [hcons] using hhead
      have hmarks : ∀ d ∈ c :: rest, d.isAlphanum = true ∨ d = '-' := by
        intro d hd
        apply hidentifier.2
        rw [hsame]
        exact List.mem_append_right _ hd
      refine .inr ⟨s.takeWhile Char.isDigit, c, rest, fun d hd => ?_, ⟨hmarks c (by simp), hc⟩,
        fun d hd => hmarks d (List.mem_cons_of_mem c hd), hsame⟩
      exact isDigit_of_ascii (List.mem_takeWhile_imp hd)
  · rintro ⟨hcounter | ⟨digits, c, rest, hdigits, ⟨hc, hletter⟩, hrest, rfl⟩, hascii⟩
    · have hnumber := isNumber_iff.mpr ⟨hcounter, hascii⟩
      refine ⟨⟨hnumber.1, fun c hc => .inl ?_⟩, fun _ => hnumber⟩
      simp [Char.isAlphanum, hnumber.2.1 c hc]
    · refine ⟨⟨by simp, fun d hd => ?_⟩, fun hall => ?_⟩
      · rcases List.mem_append.mp hd with hd' | hd'
        · exact .inl (by simp [Char.isAlphanum, hascii d hd (hdigits d hd')])
        · rcases List.mem_cons.mp hd' with rfl | hd'
          · exact hc
          · exact hrest d hd'
      · have hdigit := hall c (by simp)
        rw [hletter] at hdigit
        cases hdigit

section
variable {kind : List Char → Prop} {s : List Char}

theorem asciiDigits_append {t : List Char} :
    AsciiDigits (s ++ t) ↔ AsciiDigits s ∧ AsciiDigits t :=
  List.forall_mem_append

/-- A character that is no digit does not count. -/
theorem asciiDigits_cons {c : Char} (hc : isDigit c = false) :
    AsciiDigits (c :: s) ↔ AsciiDigits s := by
  unfold AsciiDigits
  rw [List.forall_mem_cons, and_iff_right]
  intro hdigit
  rw [hc] at hdigit
  cases hdigit

theorem asciiDigits_pointed {parts : List (List Char)} :
    AsciiDigits (parts.map ('.' :: ·)).flatten ↔ ∀ part ∈ parts, AsciiDigits part := by
  induction parts with
  | nil => simp [AsciiDigits]
  | cons part parts ih =>
    rw [List.map_cons, List.flatten_cons, asciiDigits_append, asciiDigits_cons (by decide), ih,
      List.forall_mem_cons]

variable {asciiKind : List Char → Prop} (hkind : ∀ s, asciiKind s ↔ kind s ∧ AsciiDigits s)
include hkind

theorem dotted_ascii (s : List Char) : Dotted asciiKind s ↔ Dotted kind s ∧ AsciiDigits s := by
  rw [isDotted_iff, isDotted_iff]
  constructor
  · rintro ⟨first, parts, hfirst, hparts, rfl⟩
    obtain ⟨hfirst, hascii⟩ := (hkind first).mp hfirst
    have hparts : ∀ part ∈ parts, kind part ∧ AsciiDigits part :=
      fun part hpart => (hkind part).mp (hparts part hpart)
    exact ⟨⟨first, parts, hfirst, fun part hpart => (hparts part hpart).1, rfl⟩,
      asciiDigits_append.mpr ⟨hascii, asciiDigits_pointed.mpr fun part hpart =>
        (hparts part hpart).2⟩⟩
  · rintro ⟨⟨first, parts, hfirst, hparts, rfl⟩, hascii⟩
    obtain ⟨hfirstAscii, hrest⟩ := asciiDigits_append.mp hascii
    have hpartsAscii := asciiDigits_pointed.mp hrest
    exact ⟨first, parts, (hkind first).mpr ⟨hfirst, hfirstAscii⟩,
      fun part hpart => (hkind part).mpr ⟨hparts part hpart, hpartsAscii part hpart⟩, rfl⟩

theorem behind_ascii {mark : Char} (hmark : isDigit mark = false) (s : List Char) :
    Behind mark asciiKind s ↔ Behind mark kind s ∧ AsciiDigits s := by
  constructor
  · rintro (rfl | ⟨rest, hrest, rfl⟩)
    · exact ⟨.inl rfl, by simp [AsciiDigits]⟩
    · obtain ⟨hrest, hascii⟩ := (hkind rest).mp hrest
      exact ⟨.inr ⟨rest, hrest, rfl⟩, (asciiDigits_cons hmark).mpr hascii⟩
  · rintro ⟨rfl | ⟨rest, hrest, rfl⟩, hascii⟩
    · exact .inl rfl
    · exact .inr ⟨rest, (hkind rest).mpr ⟨hrest, (asciiDigits_cons hmark).mp hascii⟩, rfl⟩

end

/-- A text is a semantic version exactly if it is taken for one and has no digits of other
scripts. -/
theorem isSemantic_iff {s : List Char} : IsSemantic s ↔ IsLiberallySemantic s ∧ AsciiDigits s := by
  have hpre : ∀ pre, Behind '-' (Dotted IsPreIdentifier) pre ↔
      Behind '-' (Dotted IsLiberalIdentifier) pre ∧ AsciiDigits pre :=
    behind_ascii (dotted_ascii fun _ => isPreIdentifier_iff) (by decide)
  have hidentifier : ∀ s, IsIdentifier s ↔ IsIdentifier s ∧ AsciiDigits s :=
    fun s => (and_iff_left_of_imp IsIdentifier.asciiDigits).symm
  have hbuild : ∀ build, Behind '+' (Dotted IsIdentifier) build ↔
      Behind '+' (Dotted IsIdentifier) build ∧ AsciiDigits build :=
    behind_ascii (dotted_ascii hidentifier) (by decide)
  have hascii : ∀ major minor patch pre build : List Char,
      AsciiDigits (major ++ '.' :: (minor ++ '.' :: (patch ++ (pre ++ build)))) ↔
        AsciiDigits major ∧ AsciiDigits minor ∧ AsciiDigits patch ∧ AsciiDigits pre ∧
          AsciiDigits build := by
    intro major minor patch pre build
    have hpoint : isDigit '.' = false := by decide
    simp only [asciiDigits_append, asciiDigits_cons hpoint]
  constructor
  · rintro ⟨major, minor, patch, pre, build, hmajor, hminor, hpatch, hpreIs, hbuildIs, rfl⟩
    obtain ⟨hmajor, hmajorAscii⟩ := isNumber_iff.mp hmajor
    obtain ⟨hminor, hminorAscii⟩ := isNumber_iff.mp hminor
    obtain ⟨hpatch, hpatchAscii⟩ := isNumber_iff.mp hpatch
    obtain ⟨hpreIs, hpreAscii⟩ := (hpre pre).mp hpreIs
    exact ⟨⟨major, minor, patch, pre, build, hmajor, hminor, hpatch, hpreIs, hbuildIs, rfl⟩,
      (hascii _ _ _ _ _).mpr
        ⟨hmajorAscii, hminorAscii, hpatchAscii, hpreAscii, ((hbuild build).mp hbuildIs).2⟩⟩
  · rintro ⟨⟨major, minor, patch, pre, build, hmajor, hminor, hpatch, hpreIs, hbuildIs, rfl⟩, h⟩
    obtain ⟨hmajorAscii, hminorAscii, hpatchAscii, hpreAscii, -⟩ := (hascii _ _ _ _ _).mp h
    exact ⟨major, minor, patch, pre, build, isNumber_iff.mpr ⟨hmajor, hmajorAscii⟩,
      isNumber_iff.mpr ⟨hminor, hminorAscii⟩, isNumber_iff.mpr ⟨hpatch, hpatchAscii⟩,
      (hpre pre).mpr ⟨hpreIs, hpreAscii⟩, hbuildIs, rfl⟩

/-! ## The check of a configuration -/

/-- A version that is to be semantic passes exactly if it is taken for a semantic version, and it
is one exactly if it passes and has no digits of other scripts. -/
theorem versionProblem_semantic {project : Project} (h : project.patternName = "SEMVER") :
    (versionProblem project = .ok [] ↔ IsLiberallySemantic project.plainVersion.toList) ∧
    (IsSemantic project.plainVersion.toList ↔
      versionProblem project = .ok [] ∧ AsciiDigits project.plainVersion.toList) ∧
    (¬IsLiberallySemantic project.plainVersion.toList →
      versionProblem project = .ok [VersionFlaw.notSemantic.message project]) := by
  have hplain : project.plainVersion.toList = stripped project.version.toList :=
    String.toList_ofList
  have hend : ∀ front, project.plainVersion.toList ≠ front ++ ['\n'] := by
    rw [hplain]
    exact stripped_ne_append (by decide) _
  have haccepts := SemVer.accepts_iff hend
  have hcheck := versionProblem_eq project
  rw [if_pos h] at hcheck
  have hpasses : versionProblem project = .ok [] ↔
      IsLiberallySemantic project.plainVersion.toList := by
    rw [hcheck, ← haccepts]
    split
    · next haccepted => simp [haccepted]
    · next hrefused => simp [hrefused]
  refine ⟨hpasses, ?_, fun hnot => ?_⟩
  · rw [hpasses]
    exact isSemantic_iff
  · rw [hcheck, if_neg (mt haccepts.mp hnot)]

/-- The name of the pattern may be in small letters, with blanks around it. -/
theorem versionProblem_semantic_release :
    (Project.mk "demo" " 1.0.0-rc.1+2024-05" " semver\n").patternName = "SEMVER" ∧
      IsSemantic "1.0.0-rc.1+2024-05".toList := by
  have hpattern : (Project.mk "demo" " 1.0.0-rc.1+2024-05" " semver\n").patternName = "SEMVER" := by
    decide
  obtain ⟨-, hsemantic, -⟩ := versionProblem_semantic hpattern
  have hpasses : versionProblem ⟨"demo", " 1.0.0-rc.1+2024-05", " semver\n"⟩ = .ok [] := by
    decide +kernel
  have hplain : (Project.mk "demo" " 1.0.0-rc.1+2024-05" " semver\n").plainVersion =
      "1.0.0-rc.1+2024-05" := by
    decide
  rw [hplain] at hsemantic
  have hascii : AsciiDigits "1.0.0-rc.1+2024-05".toList := by
    have hall : "1.0.0-rc.1+2024-05".toList.all (fun c => !isDigit c || c.isDigit) = true := by
      decide +kernel
    simpa [AsciiDigits, ← Bool.not_eq_true, imp_iff_not_or] using List.all_eq_true.mp hall
  exact ⟨hpattern, hsemantic.mpr ⟨hpasses, hascii⟩⟩

/-- An Arabic nought at the end of a number passes, but is in no semantic version. -/
theorem versionProblem_arabicNought : ∃ project : Project, project.patternName = "SEMVER" ∧
    isBlankText project.version = false ∧ versionProblem project = .ok [] ∧
    ¬IsSemantic project.plainVersion.toList := by
  have hpasses : versionProblem ⟨"demo", "1.2.1٠", "SEMVER"⟩ = .ok [] := by decide +kernel
  have hplain : (Project.mk "demo" "1.2.1٠" "SEMVER").plainVersion = "1.2.1٠" := by decide
  refine ⟨⟨"demo", "1.2.1٠", "SEMVER"⟩, by decide, by decide, hpasses, fun hsemantic => ?_⟩
  rw [hplain] at hsemantic
  have hdigit := (isSemantic_iff.mp hsemantic).2 '٠' (by decide) (by decide)
  exact absurd hdigit (by decide)

end ReleaseRunner.Version
