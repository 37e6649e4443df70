import Mathlib.Tactic.Ring
import ReleaseRunner.Proofs.Pattern.Language
import ReleaseRunner.Version.Token

/-!
# The numbers of a token

What a token admits is said in numbers: a range of years, months, weeks or days, written in
decimal and perhaps padded to two digits, or a counter. The main statement is `reads_token`:
the pattern of each token reads exactly what the token admits.

The patterns list their ranges digit by digit. So the lemmas build up ranges in the same way:
one digit, a further digit behind, and one range after another.
-/

namespace ReleaseRunner.Version

open Pattern Text

/-! ## Decimal texts -/

/-- A number in decimal digits. -/
def decimal (n : Nat) : List Char := Nat.toDigits 10 n

/-- A number in at least two decimal digits. -/
def padded (n : Nat) : List Char := if n < 10 then '0' :: decimal n else decimal n

/-- A number in decimal digits, padded or not. -/
def numeral : Bool → Nat → List Char
  | false => decimal
  | true => padded

/-- The number that decimal digits write. -/
def valueOf (s : List Char) : Nat := Nat.ofDigitChars 10 s 0

theorem decimal_digit {d : Nat} (h : d < 10) : decimal d = [d.digitChar] :=
  Nat.toDigits_of_lt_base h

theorem decimal_append {m d : Nat} (hm : 0 < m) (hd : d < 10) :
    decimal m ++ decimal d = decimal (10 * m + d) :=
  Nat.toDigits_append_toDigits (by decide) hm hd

theorem valueOf_decimal (n : Nat) : valueOf (decimal n) = n :=
  Nat.ofDigitChars_ten_toDigits

theorem valueOf_padded (n : Nat) : valueOf (padded n) = n := by
  unfold padded
  split
  · have hzero : valueOf ('0' :: decimal n) = valueOf (decimal n) := by
      unfold valueOf
      rw [Nat.ofDigitChars_cons]
      rfl
    rw [hzero, valueOf_decimal]
  · exact valueOf_decimal n

theorem isDigit_of_mem_decimal {n : Nat} {c : Char} (h : c ∈ decimal n) : c.isDigit = true :=
  Nat.isDigit_of_mem_toDigits (by decide) (by decide) h

theorem isDigit_of_mem_padded {n : Nat} {c : Char} (h : c ∈ padded n) : c.isDigit = true := by
  unfold padded at h
  split at h
  · rcases List.mem_cons.mp h with rfl | h
    · decide
    · exact isDigit_of_mem_decimal h
  · exact isDigit_of_mem_decimal h

theorem decimal_ne_nil (n : Nat) : decimal n ≠ [] := Nat.toDigits_ne_nil

theorem padded_ne_nil (n : Nat) : padded n ≠ [] := by
  unfold padded
  split
  · exact List.cons_ne_nil _ _
  · exact decimal_ne_nil n

/-- Padded or not, a number is written in ASCII digits. -/
theorem isDigit_of_mem_numeral {padding : Bool} {n : Nat} {c : Char} (h : c ∈ numeral padding n) :
    c.isDigit = true := by
  cases padding with
  | false => exact isDigit_of_mem_decimal h
  | true => exact isDigit_of_mem_padded h

theorem numeral_ne_nil (padding : Bool) (n : Nat) : numeral padding n ≠ [] := by
  cases padding with
  | false => exact decimal_ne_nil n
  | true => exact padded_ne_nil n

theorem valueOf_numeral (padding : Bool) (n : Nat) : valueOf (numeral padding n) = n := by
  cases padding with
  | false => exact valueOf_decimal n
  | true => exact valueOf_padded n

theorem length_numeral_le (padding : Bool) {n : Nat} (h : n < 10000) :
    (numeral padding n).length ≤ 4 := by
  have hdecimal : (decimal n).length ≤ 4 :=
    (Nat.length_toDigits_le_iff (by decide) (by decide)).mpr h
  cases padding with
  | false => exact hdecimal
  | true =>
    show (padded n).length ≤ 4
    unfold padded
    split
    · next hsmall =>
      rw [decimal_digit hsmall]
      simp
    · exact hdecimal

/-- Between two digits there are digits alone. -/
theorem between_iff_digit {a b : Nat} (hb : b < 10) (c : Char) :
    a.digitChar.toNat ≤ c.toNat ∧ c.toNat ≤ b.digitChar.toNat ∧ a < 10 ↔
      ∃ d, a ≤ d ∧ d ≤ b ∧ c = d.digitChar := by
  rw [Nat.toNat_digitChar_of_lt_ten hb]
  constructor
  · rintro ⟨hlow, hhigh, ha⟩
    rw [Nat.toNat_digitChar_of_lt_ten ha] at hlow
    refine ⟨c.toNat - 48, by omega, by omega, ?_⟩
    apply Char.toNat_inj.mp
    rw [Nat.toNat_digitChar_of_lt_ten (by omega)]
    omega
  · rintro ⟨d, hlow, hhigh, rfl⟩
    rw [Nat.toNat_digitChar_of_lt_ten (by omega), Nat.toNat_digitChar_of_lt_ten (by omega)]
    omega

/-! ## Ranges of numbers -/

/-- The text writes a number from the first to the last. -/
def Numbers (write : Nat → List Char) (first last : Nat) (s : List Char) : Prop :=
  ∃ n, first ≤ n ∧ n ≤ last ∧ s = write n

/-- The pattern reads the numbers from the first to the last, and captures nothing. -/
def ReadsNumbers (p : Pattern) (write : Nat → List Char) (first last : Nat) : Prop :=
  ∀ s g, Reads p s g ↔ g = [] ∧ Numbers write first last s

theorem reads_digit {a b : Nat} {low high : Char} (hlow : low = a.digitChar)
    (hhigh : high = b.digitChar) (hab : a ≤ b) (hb : b < 10) :
    ReadsNumbers (between low high) decimal a b := by
  subst hlow hhigh
  intro s g
  have hchar : ∀ c, CharSet.holds ⟨false, [.range a.digitChar.toNat b.digitChar.toNat]⟩ false
      false c = true ↔ ∃ d, a ≤ d ∧ d ≤ b ∧ c = d.digitChar := by
    intro c
    rw [← between_iff_digit hb c]
    have ha : a < 10 := by omega
    simp [CharSet.holds, ClassItem.holds, ha]
  constructor
  · rintro ⟨c, hc, rfl, rfl⟩
    obtain ⟨d, hlow, hhigh, rfl⟩ := (hchar c).mp hc
    exact ⟨rfl, d, hlow, hhigh, (decimal_digit (by omega)).symm⟩
  · rintro ⟨rfl, d, hlow, hhigh, rfl⟩
    exact ⟨d.digitChar, (hchar _).mpr ⟨d, hlow, hhigh, rfl⟩, decimal_digit (by omega), rfl⟩

theorem reads_literal_digit {d : Nat} {c : Char} (hc : c = d.digitChar) (h : d < 10) :
    ReadsNumbers (literal c) decimal d d := by
  subst hc
  intro s g
  constructor
  · rintro ⟨c, hc, rfl, rfl⟩
    have hsame : c.toNat = d.digitChar.toNat := by
      simpa [CharSet.holds, ClassItem.holds] using hc
    rw [Char.toNat_inj.mp hsame]
    exact ⟨rfl, d, le_refl d, le_refl d, (decimal_digit h).symm⟩
  · rintro ⟨rfl, n, hlow, hhigh, rfl⟩
    obtain rfl : n = d := by omega
    exact ⟨n.digitChar, by simp [CharSet.holds, ClassItem.holds], decimal_digit h, rfl⟩

private theorem reads_anyDigit : ReadsNumbers (between '0' '9') decimal 0 9 :=
  reads_digit rfl rfl (by decide) (by decide)

section
variable {p q : Pattern} {write : Nat → List Char} {a b c d : Nat}

/-- A digit behind a number: any digit behind some number, or some digit behind a given one. -/
theorem ReadsNumbers.snoc (hp : ReadsNumbers p decimal a b) (hq : ReadsNumbers q decimal c d)
    (ha : 0 < a) (hd : d < 10) (h : a = b ∨ c = 0 ∧ d = 9) :
    ReadsNumbers (seq p q) decimal (10 * a + c) (10 * b + d) := by
  intro s g
  constructor
  · rintro ⟨s₁, s₂, g₁, g₂, rfl, rfl, hfirst, hsecond⟩
    obtain ⟨rfl, m, hm, hm', rfl⟩ := (hp _ _).mp hfirst
    obtain ⟨rfl, k, hk, hk', rfl⟩ := (hq _ _).mp hsecond
    refine ⟨rfl, 10 * m + k, by omega, by omega, ?_⟩
    exact decimal_append (by omega) (by omega)
  · rintro ⟨rfl, n, hlow, hhigh, rfl⟩
    -- the number without its last digit is in the first range
    have hm : a ≤ n / 10 ∧ n / 10 ≤ b := by omega
    have hk : c ≤ n % 10 ∧ n % 10 ≤ d := by omega
    refine ⟨decimal (n / 10), decimal (n % 10), [], [], ?_, rfl,
      (hp _ _).mpr ⟨rfl, n / 10, hm.1, hm.2, rfl⟩, (hq _ _).mpr ⟨rfl, n % 10, hk.1, hk.2, rfl⟩⟩
    rw [decimal_append (by omega) (by omega)]
    congr 1
    omega

/-- One range after another. -/
theorem ReadsNumbers.either (hp : ReadsNumbers p write a b) (hq : ReadsNumbers q write (b + 1) c)
    (hab : a ≤ b + 1) (hbc : b ≤ c) : ReadsNumbers (either p q) write a c := by
  intro s g
  constructor
  · rintro (h | h)
    · obtain ⟨rfl, n, hlow, hhigh, rfl⟩ := (hp _ _).mp h
      exact ⟨rfl, n, by omega, by omega, rfl⟩
    · obtain ⟨rfl, n, hlow, hhigh, rfl⟩ := (hq _ _).mp h
      exact ⟨rfl, n, by omega, by omega, rfl⟩
  · rintro ⟨rfl, n, hlow, hhigh, rfl⟩
    by_cases h : n ≤ b
    · exact .inl ((hp _ _).mpr ⟨rfl, n, hlow, h, rfl⟩)
    · exact .inr ((hq _ _).mpr ⟨rfl, n, by omega, hhigh, rfl⟩)

/-- So many digits more. -/
theorem ReadsNumbers.digits (k : Nat) (hp : ReadsNumbers p decimal a b) (ha : 0 < a) :
    ReadsNumbers (seq p (repeated (between '0' '9') k (some k) .greedy)) decimal (10 ^ k * a)
      (10 ^ k * b + (10 ^ k - 1)) := by
  have htimes : ∀ s g, Reads (seq p (repeated (between '0' '9') k (some k) .greedy)) s g ↔
      ∃ s₁ s₂ g₁ g₂, s = s₁ ++ s₂ ∧ g = g₂ ++ g₁ ∧ Reads p s₁ g₁ ∧
        times (Reads (between '0' '9')) k s₂ g₂ := by
    intro s g
    constructor
    · rintro ⟨s₁, s₂, g₁, g₂, hs, hg, hfirst, n, hleast, hmost, hdigits⟩
      obtain rfl : n = k := by
        have := hmost k rfl
        omega
      exact ⟨s₁, s₂, g₁, g₂, hs, hg, hfirst, hdigits⟩
    · rintro ⟨s₁, s₂, g₁, g₂, hs, hg, hfirst, hdigits⟩
      refine ⟨s₁, s₂, g₁, g₂, hs, hg, hfirst, k, le_refl k, ?_, hdigits⟩
      intro m hm
      cases hm
      exact le_refl k
  intro s g
  rw [htimes]
  clear htimes
  -- each digit goes over from the repetition to the number in front of it
  induction k generalizing p a b with
  | zero =>
    rw [Nat.pow_zero, Nat.one_mul, Nat.one_mul, Nat.sub_self, Nat.add_zero, ← hp]
    constructor
    · rintro ⟨s₁, _, g₁, _, rfl, rfl, hfirst, rfl, rfl⟩
      rw [List.append_nil]
      exact hfirst
    · intro h
      exact ⟨s, [], g, [], (List.append_nil s).symm, rfl, h, rfl, rfl⟩
  | succ k ih =>
    have hmore := ih (hp.snoc reads_anyDigit ha (by decide) (.inr ⟨rfl, rfl⟩)) (by omega)
    have hlow : 10 ^ k * (10 * a + 0) = 10 ^ (k + 1) * a := by ring
    have hhigh : 10 ^ k * (10 * b + 9) + (10 ^ k - 1) = 10 ^ (k + 1) * b + (10 ^ (k + 1) - 1) := by
      have hpos : 0 < 10 ^ k := Nat.pow_pos (by decide)
      have hten : 10 ^ (k + 1) = 10 * 10 ^ k := by ring
      have hsum : 10 ^ k * (10 * b + 9) = 10 * (10 ^ k * b) + 9 * 10 ^ k := by ring
      have hprod : 10 * 10 ^ k * b = 10 * (10 ^ k * b) := by ring
      rw [hten, hsum, hprod]
      omega
    rw [hlow, hhigh] at hmore
    rw [← hmore]
    constructor
    · rintro ⟨s₁, _, g₁, _, rfl, rfl, hfirst, s₂, s₃, g₂, g₃, rfl, rfl, hsecond, hrest⟩
      exact ⟨s₁ ++ s₂, s₃, g₂ ++ g₁, g₃, (List.append_assoc _ _ _).symm, List.append_assoc _ _ _,
        ⟨s₁, s₂, g₁, g₂, rfl, rfl, hfirst, hsecond⟩, hrest⟩
    · rintro ⟨_, s₃, _, g₃, rfl, rfl, ⟨s₁, s₂, g₁, g₂, rfl, rfl, hfirst, hsecond⟩, hrest⟩
      exact ⟨s₁, s₂ ++ s₃, g₁, g₃ ++ g₂, List.append_assoc _ _ _, (List.append_assoc _ _ _).symm,
        hfirst, s₂, s₃, g₂, g₃, rfl, rfl, hsecond, hrest⟩

/-- From ten on nothing is padded. -/
theorem ReadsNumbers.numeral (padding : Bool) (hp : ReadsNumbers p decimal a b) (ha : 10 ≤ a) :
    ReadsNumbers p (numeral padding) a b := by
  -- a second digit is there already
  have hsame : ∀ n, a ≤ n → Version.numeral padding n = decimal n := by
    intro n hn
    cases padding with
    | false => rfl
    | true =>
      show padded n = decimal n
      unfold padded
      rw [if_neg (by omega)]
  intro s g
  rw [hp]
  constructor
  · rintro ⟨rfl, n, hlow, hhigh, rfl⟩
    exact ⟨rfl, n, hlow, hhigh, (hsame n hlow).symm⟩
  · rintro ⟨rfl, n, hlow, hhigh, rfl⟩
    exact ⟨rfl, n, hlow, hhigh, hsame n hlow⟩

end

/-! ## The tokens -/

/-- A counter: nought, or digits of any script after one from one to nine. -/
def IsCounter (s : List Char) : Prop :=
  s = ['0'] ∨ ∃ c rest, s = c :: rest ∧ '1' ≤ c ∧ c ≤ '9' ∧ ∀ d ∈ rest, isDigit d = true

/-- The texts that a version may have in the place of a token. -/
def Token.Admits : Token → List Char → Prop
  | .fullYear, s => Numbers decimal 2000 9999 s
  | .shortYear, s => Numbers decimal 1 999 s
  | .paddedYear, s => Numbers padded 1 999 s
  | .month, s => Numbers decimal 1 12 s
  | .paddedMonth, s => Numbers padded 1 12 s
  | .week, s => Numbers decimal 1 52 s
  | .paddedWeek, s => Numbers padded 1 52 s
  | .day, s => Numbers decimal 1 31 s
  | .paddedDay, s => Numbers padded 1 31 s
  | .minor, s => IsCounter s
  | .micro, s => IsCounter s

theorem reads_oneDigit (padding : Bool) :
    ReadsNumbers (oneDigit padding) (numeral padding) 1 9 := by
  have hdigit : ReadsNumbers (between '1' '9') decimal 1 9 :=
    reads_digit rfl rfl (by decide) (by decide)
  cases padding with
  | false => exact hdigit
  | true =>
    have hpadded : ∀ n, n ≤ 9 → padded n = '0' :: decimal n := by
      intro n hn
      unfold padded
      rw [if_pos (by omega)]
    intro s g
    constructor
    · rintro ⟨_, s₂, _, g₂, rfl, rfl, ⟨c, hc, rfl, rfl⟩, hsecond⟩
      obtain ⟨rfl, n, hlow, hhigh, rfl⟩ := (hdigit _ _).mp hsecond
      have hzero : c.toNat = '0'.toNat := by
        simpa [CharSet.holds, ClassItem.holds] using hc
      rw [Char.toNat_inj.mp hzero]
      exact ⟨rfl, n, hlow, hhigh, (hpadded n hhigh).symm⟩
    · rintro ⟨rfl, n, hlow, hhigh, rfl⟩
      exact ⟨['0'], decimal n, [], [], hpadded n hhigh, rfl, ⟨'0', by decide, rfl, rfl⟩,
        (hdigit _ _).mpr ⟨rfl, n, hlow, hhigh, rfl⟩⟩

private theorem reads_uptoTwo : ReadsNumbers (between '0' '2') decimal 0 2 :=
  reads_digit rfl rfl (by decide) (by decide)

private theorem reads_uptoOne : ReadsNumbers (between '0' '1') decimal 0 1 :=
  reads_digit rfl rfl (by decide) (by decide)

theorem reads_uptoThreeDigits (padding : Bool) :
    ReadsNumbers (choice (oneDigit padding :: uptoThreeDigits)) (numeral padding) 1 999 := by
  have htwo : ReadsNumbers (seq (between '1' '9') (between '0' '9')) decimal 10 99 :=
    (reads_oneDigit false).snoc reads_anyDigit (by decide) (by decide) (.inr ⟨rfl, rfl⟩)
  have hthree : ReadsNumbers (seq (between '1' '9')
      (repeated (between '0' '9') 2 (some 2) .greedy)) decimal 100 999 :=
    (reads_oneDigit false).digits 2 (by decide)
  have hmore := (htwo.numeral padding (by decide)).either (hthree.numeral padding (by decide))
    (by decide) (by decide)
  exact (reads_oneDigit padding).either hmore (by decide) (by decide)

theorem reads_months (padding : Bool) : ReadsNumbers
    (choice [oneDigit padding, seq (literal '1') (between '0' '2')]) (numeral padding) 1 12 := by
  have hone : ReadsNumbers (literal '1') decimal 1 1 := reads_literal_digit rfl (by decide)
  have hten : ReadsNumbers (seq (literal '1') (between '0' '2')) decimal 10 12 :=
    hone.snoc reads_uptoTwo (by decide) (by decide) (.inl rfl)
  exact (reads_oneDigit padding).either (hten.numeral padding (by decide)) (by decide) (by decide)

theorem reads_weeks (padding : Bool) :
    ReadsNumbers (Token.pattern.weeks padding) (numeral padding) 1 52 := by
  have hfirst : ReadsNumbers (between '1' '4') decimal 1 4 :=
    reads_digit rfl rfl (by decide) (by decide)
  have hten : ReadsNumbers (seq (between '1' '4') (between '0' '9')) decimal 10 49 :=
    hfirst.snoc reads_anyDigit (by decide) (by decide) (.inr ⟨rfl, rfl⟩)
  have hfive : ReadsNumbers (literal '5') decimal 5 5 := reads_literal_digit rfl (by decide)
  have hfifty : ReadsNumbers (seq (literal '5') (between '0' '2')) decimal 50 52 :=
    hfive.snoc reads_uptoTwo (by decide) (by decide) (.inl rfl)
  have hmore := (hten.numeral padding (by decide)).either (hfifty.numeral padding (by decide))
    (by decide) (by decide)
  exact (reads_oneDigit padding).either hmore (by decide) (by decide)

theorem reads_days (padding : Bool) :
    ReadsNumbers (Token.pattern.days padding) (numeral padding) 1 31 := by
  have hfirst : ReadsNumbers (between '1' '2') decimal 1 2 :=
    reads_digit rfl rfl (by decide) (by decide)
  have hten : ReadsNumbers (seq (between '1' '2') (between '0' '9')) decimal 10 29 :=
    hfirst.snoc reads_anyDigit (by decide) (by decide) (.inr ⟨rfl, rfl⟩)
  have hthree : ReadsNumbers (literal '3') decimal 3 3 := reads_literal_digit rfl (by decide)
  have hthirty : ReadsNumbers (seq (literal '3') (between '0' '1')) decimal 30 31 :=
    hthree.snoc reads_uptoOne (by decide) (by decide) (.inl rfl)
  have hmore := (hten.numeral padding (by decide)).either (hthirty.numeral padding (by decide))
    (by decide) (by decide)
  exact (reads_oneDigit padding).either hmore (by decide) (by decide)

theorem reads_fullYear : ReadsNumbers (Token.pattern .fullYear) decimal 2000 9999 := by
  have hfirst : ReadsNumbers (between '2' '9') decimal 2 9 :=
    reads_digit rfl rfl (by decide) (by decide)
  exact hfirst.digits 3 (by decide)

/-- A set of characters, any number of times. -/
theorem times_char {set : CharSet} {n : Nat} {s : List Char} {g : Groups} :
    times (Reads (char set false false)) n s g ↔
      g = [] ∧ s.length = n ∧ ∀ c ∈ s, set.holds false false c = true := by
  induction n generalizing s g with
  | zero =>
    constructor
    · rintro ⟨rfl, rfl⟩
      exact ⟨rfl, rfl, by simp⟩
    · rintro ⟨rfl, hlength, -⟩
      exact ⟨List.length_eq_zero_iff.mp hlength, rfl⟩
  | succ n ih =>
    constructor
    · rintro ⟨_, s₂, _, g₂, rfl, rfl, ⟨c, hc, rfl, rfl⟩, hrest⟩
      obtain ⟨rfl, hlength, hall⟩ := ih.mp hrest
      refine ⟨rfl, by simp [hlength], ?_⟩
      intro d hd
      rcases List.mem_cons.mp hd with rfl | hd
      · exact hc
      · exact hall d hd
    · rintro ⟨rfl, hlength, hall⟩
      obtain ⟨c, rest, rfl⟩ := List.exists_cons_of_length_eq_add_one hlength
      refine ⟨[c], rest, [], [], rfl, rfl, ⟨c, hall c List.mem_cons_self, rfl, rfl⟩, ?_⟩
      refine ih.mpr ⟨rfl, by simpa using hlength, ?_⟩
      intro d hd
      exact hall d (List.mem_cons_of_mem _ hd)

/-- One character of a set and any number of another. -/
theorem reads_char_repeated {first others : CharSet} {s : List Char} {g : Groups} :
    Reads (seq (char first false false) (repeated (char others false false) 0 none .greedy)) s g ↔
      g = [] ∧ ∃ c rest, s = c :: rest ∧ first.holds false false c = true ∧
        ∀ d ∈ rest, others.holds false false d = true := by
  constructor
  · rintro ⟨_, s₂, _, g₂, rfl, rfl, ⟨c, hc, rfl, rfl⟩, n, -, -, hrest⟩
    obtain ⟨rfl, -, hall⟩ := times_char.mp hrest
    exact ⟨rfl, c, s₂, rfl, hc, hall⟩
  · rintro ⟨rfl, c, rest, rfl, hc, hall⟩
    refine ⟨[c], rest, [], [], rfl, rfl, ⟨c, hc, rfl, rfl⟩, rest.length, Nat.zero_le _, by simp, ?_⟩
    exact times_char.mpr ⟨rfl, rfl, hall⟩

/-- The digits from one to nine, and those of any script, as sets. -/
private theorem holds_oneToNine (c : Char) :
    CharSet.holds ⟨false, [.range '1'.toNat '9'.toNat]⟩ false false c = true ↔
      '1' ≤ c ∧ c ≤ '9' := by
  simp [CharSet.holds, ClassItem.holds, Char.le_def, UInt32.le_iff_toNat_le]

theorem holds_digit (c : Char) :
    CharSet.holds ⟨false, [.kind .digit true]⟩ false false c = isDigit c := by
  simp [CharSet.holds, ClassItem.holds, Kind.holds]

theorem reads_counter {s : List Char} {g : Groups} :
    Reads counter s g ↔ g = [] ∧ IsCounter s := by
  constructor
  · rintro (⟨c, hc, rfl, rfl⟩ | h)
    · have hzero : c.toNat = '0'.toNat := by
        simpa [CharSet.holds, ClassItem.holds] using hc
      rw [Char.toNat_inj.mp hzero]
      exact ⟨rfl, .inl rfl⟩
    · obtain ⟨rfl, c, rest, rfl, hc, hall⟩ := reads_char_repeated.mp h
      obtain ⟨hlow, hhigh⟩ := (holds_oneToNine c).mp hc
      refine ⟨rfl, .inr ⟨c, rest, rfl, hlow, hhigh, ?_⟩⟩
      intro d hd
      rw [← holds_digit]
      exact hall d hd
  · rintro ⟨rfl, rfl | ⟨c, rest, rfl, hlow, hhigh, hall⟩⟩
    · exact .inl ⟨'0', by decide, rfl, rfl⟩
    · refine .inr (reads_char_repeated.mpr ⟨rfl, c, rest, rfl, ?_, ?_⟩)
      · exact (holds_oneToNine c).mpr ⟨hlow, hhigh⟩
      · intro d hd
        rw [holds_digit]
        exact hall d hd

/-- The pattern of a token reads what the token admits, and captures nothing. -/
theorem reads_token (token : Token) (s : List Char) (g : Groups) :
    Reads token.pattern s g ↔ g = [] ∧ token.Admits s := by
  cases token with
  | fullYear => exact reads_fullYear s g
  | shortYear => exact reads_uptoThreeDigits false s g
  | paddedYear => exact reads_uptoThreeDigits true s g
  | month => exact reads_months false s g
  | paddedMonth => exact reads_months true s g
  | week => exact reads_weeks false s g
  | paddedWeek => exact reads_weeks true s g
  | day => exact reads_days false s g
  | paddedDay => exact reads_days true s g
  | minor => exact reads_counter
  | micro => exact reads_counter

theorem plain_token (token : Token) : Plain token.pattern := by
  have hchar : ∀ set g, ¬Reads (char set false false) [] g := by
    rintro set g ⟨c, -, h, -⟩
    cases h
  cases token <;>
    simp [Token.pattern, Token.pattern.weeks, Token.pattern.days, oneDigit, uptoThreeDigits,
      counter, choice, between, literal, Plain, hchar]

/-- The ASCII digits are among the digits of all scripts. -/
theorem digitValue?_of_ascii {c : Char} (h : c.isDigit = true) :
    digitValue? c = some (c.toNat - 48) := by
  have hrange : 48 ≤ c.toNat ∧ c.toNat ≤ 57 := by
    simpa [Char.isDigit, UInt32.le_iff_toNat_le] using h
  have hfirst : (decide (0x30 ≤ c.toNat) && decide (c.toNat < 0x30 + 10)) = true := by
    rw [Bool.and_eq_true, decide_eq_true_eq, decide_eq_true_eq]
    omega
  unfold digitValue? noughts
  simp only [List.find?_cons, hfirst, Option.map_some]

theorem isDigit_of_ascii {c : Char} (h : c.isDigit = true) : isDigit c = true := by
  unfold isDigit
  rw [digitValue?_of_ascii h]
  rfl

/-- A token admits a number of up to four digits, or a counter. -/
theorem Token.Admits.numeral_or_counter {token : Token} {s : List Char} (h : token.Admits s) :
    (∃ padding n, n < 10000 ∧ s = numeral padding n) ∨
      (token.slot = .minor ∨ token.slot = .micro) ∧ IsCounter s := by
  have hnumbers : ∀ padding first last, last < 10000 → Numbers (numeral padding) first last s →
      ∃ padding n, n < 10000 ∧ s = numeral padding n := by
    rintro padding first last hlast ⟨n, -, hhigh, rfl⟩
    exact ⟨padding, n, by omega, rfl⟩
  cases token with
  | fullYear => exact .inl (hnumbers false _ _ (by decide) h)
  | shortYear => exact .inl (hnumbers false _ _ (by decide) h)
  | paddedYear => exact .inl (hnumbers true _ _ (by decide) h)
  | month => exact .inl (hnumbers false _ _ (by decide) h)
  | paddedMonth => exact .inl (hnumbers true _ _ (by decide) h)
  | week => exact .inl (hnumbers false _ _ (by decide) h)
  | paddedWeek => exact .inl (hnumbers true _ _ (by decide) h)
  | day => exact .inl (hnumbers false _ _ (by decide) h)
  | paddedDay => exact .inl (hnumbers true _ _ (by decide) h)
  | minor => exact .inr ⟨.inl rfl, h⟩
  | micro => exact .inr ⟨.inr rfl, h⟩

/-- The tokens of a date admit numbers of up to four digits. -/
theorem Token.Admits.exists_numeral {token : Token} {s : List Char} (h : token.Admits s)
    (hminor : token.slot ≠ .minor) (hmicro : token.slot ≠ .micro) :
    ∃ padding n, n < 10000 ∧ s = numeral padding n := by
  rcases h.numeral_or_counter with hnumeral | ⟨hslot | hslot, -⟩
  · exact hnumeral
  · exact absurd hslot hminor
  · exact absurd hslot hmicro

/-- A counter begins with an ASCII digit, and any digits may follow. -/
theorem IsCounter.isDigit {s : List Char} (h : IsCounter s) :
    s ≠ [] ∧ ∀ c ∈ s, Text.isDigit c = true := by
  rcases h with rfl | ⟨c, rest, rfl, hlow, hhigh, hall⟩
  · exact ⟨by simp, by simp [isDigit_of_ascii]⟩
  · refine ⟨List.cons_ne_nil c rest, ?_⟩
    intro d hd
    rcases List.mem_cons.mp hd with rfl | hd
    · apply isDigit_of_ascii
      rw [Char.le_def, UInt32.le_iff_toNat_le] at hlow hhigh
      have hlow : 49 ≤ d.toNat := hlow
      have hhigh : d.toNat ≤ 57 := hhigh
      have hrange : 48 ≤ d.toNat ∧ d.toNat ≤ 57 := by omega
      simpa [Char.isDigit, UInt32.le_iff_toNat_le] using hrange
    · exact hall d hd

/-- A text that a token admits is made of digits. -/
theorem Token.Admits.isDigit {token : Token} {s : List Char} (h : token.Admits s) :
    s ≠ [] ∧ ∀ c ∈ s, Text.isDigit c = true := by
  rcases h.numeral_or_counter with ⟨padding, n, -, rfl⟩ | ⟨-, hcounter⟩
  · exact ⟨numeral_ne_nil padding n, fun c hc => isDigit_of_ascii (isDigit_of_mem_numeral hc)⟩
  · exact hcounter.isDigit

theorem Token.Admits.month_range {token : Token} {s : List Char} (h : token.Admits s)
    (hmonth : token.slot = .month) : 1 ≤ valueOf s ∧ valueOf s ≤ 12 := by
  have hnumbers : ∀ padding, Numbers (numeral padding) 1 12 s → 1 ≤ valueOf s ∧ valueOf s ≤ 12 := by
    rintro padding ⟨n, hlow, hhigh, rfl⟩
    rw [valueOf_numeral]
    exact ⟨hlow, hhigh⟩
  cases token with
  | month => exact hnumbers false h
  | paddedMonth => exact hnumbers true h
  | _ => cases hmonth

/-! ## One text for each number -/

private theorem exists_decimal_digit {c : Char} (h : c.isDigit = true) :
    ∃ d < 10, decimal d = [c] := by
  have hrange : 48 ≤ c.toNat ∧ c.toNat ≤ 57 := by
    simpa [Char.isDigit, UInt32.le_iff_toNat_le] using h
  have hdigit : (c.toNat - 48).digitChar = c := by
    apply Char.toNat_inj.mp
    rw [Nat.toNat_digitChar_of_lt_ten (by omega)]
    omega
  refine ⟨c.toNat - 48, by omega, ?_⟩
  rw [decimal_digit (by omega), hdigit]

/-- Digits behind a number that is not nought make a number. -/
private theorem exists_decimal_append {rest : List Char} (h : ∀ c ∈ rest, c.isDigit = true)
    {m : Nat} (hm : 0 < m) : ∃ n, decimal n = decimal m ++ rest := by
  induction rest generalizing m with
  | nil => exact ⟨m, (List.append_nil _).symm⟩
  | cons c rest ih =>
    obtain ⟨d, hd, hc⟩ := exists_decimal_digit (h c List.mem_cons_self)
    obtain ⟨n, hn⟩ := ih (fun e he => h e (List.mem_cons_of_mem c he)) (m := 10 * m + d) (by omega)
    refine ⟨n, ?_⟩
    rw [hn, ← decimal_append hm hd, hc, List.append_assoc, List.singleton_append]

/-- In ASCII digits a counter is written like any number. -/
theorem IsCounter.exists_decimal {s : List Char} (h : IsCounter s)
    (hascii : ∀ c ∈ s, c.isDigit = true) : ∃ n, s = decimal n := by
  rcases h with rfl | ⟨c, rest, rfl, hlow, -, -⟩
  · exact ⟨0, rfl⟩
  · obtain ⟨d, hd, hc⟩ := exists_decimal_digit (hascii c List.mem_cons_self)
    have hpositive : 0 < d := by
      rw [Nat.pos_iff_ne_zero]
      rintro rfl
      cases hc
      exact absurd hlow (by decide)
    obtain ⟨n, hn⟩ := exists_decimal_append
      (fun e he => hascii e (List.mem_cons_of_mem c he)) hpositive
    refine ⟨n, ?_⟩
    rw [hn, hc, List.singleton_append]

/-- In ASCII digits a token admits one text only for each number. -/
theorem Token.Admits.eq_of_valueOf {token : Token} {s s' : List Char} (h : token.Admits s)
    (h' : token.Admits s') (hs : ∀ c ∈ s, c.isDigit = true) (hs' : ∀ c ∈ s', c.isDigit = true)
    (hvalue : valueOf s = valueOf s') : s = s' := by
  have hnumbers : ∀ padding first last, Numbers (numeral padding) first last s →
      Numbers (numeral padding) first last s' → s = s' := by
    rintro padding first last ⟨n, -, -, rfl⟩ ⟨n', -, -, rfl⟩
    rw [valueOf_numeral, valueOf_numeral] at hvalue
    rw [hvalue]
  have hcounters : IsCounter s → IsCounter s' → s = s' := by
    intro hc hc'
    obtain ⟨n, rfl⟩ := hc.exists_decimal hs
    obtain ⟨n', rfl⟩ := hc'.exists_decimal hs'
    rw [valueOf_decimal, valueOf_decimal] at hvalue
    rw [hvalue]
  cases token with
  | fullYear => exact hnumbers false _ _ h h'
  | shortYear => exact hnumbers false _ _ h h'
  | paddedYear => exact hnumbers true _ _ h h'
  | month => exact hnumbers false _ _ h h'
  | paddedMonth => exact hnumbers true _ _ h h'
  | week => exact hnumbers false _ _ h h'
  | paddedWeek => exact hnumbers true _ _ h h'
  | day => exact hnumbers false _ _ h h'
  | paddedDay => exact hnumbers true _ _ h h'
  | minor => exact hcounters h h'
  | micro => exact hcounters h h'

end ReleaseRunner.Version
