import Mathlib.Tactic.Ring
import Mathlib.Tactic.Linarith
import ReleaseRunner.Number.Binary64

/-!
# Rounding quotients

Binary numbers below `2 ^ 53` are spaced so closely that every whole number is one of them.
So rounding a quotient never carries it over a whole number, and it is off by at most one part
in `2 ^ 53` (`exists_ofRatio`). Quotient and remainder by a whole number are exact there
(`divModNat_finite`): all that is rounded on the way is a whole number already.
-/

namespace ReleaseRunner.Number

/-! ## Powers of two -/

theorem two_pow_eq (n : Nat) : 2 ^ n = twoTo n := rfl

theorem twoTo_pos (n : Nat) : 0 < twoTo n := Nat.two_pow_pos n

theorem twoTo_add (m n : Nat) : twoTo (m + n) = twoTo m * twoTo n := Nat.pow_add 2 m n

theorem twoTo_dvd_twoTo {m n : Nat} (h : m ≤ n) : twoTo m ∣ twoTo n := Nat.pow_dvd_pow 2 h

theorem twoTo_lt_twoTo {m n : Nat} (h : m < n) : twoTo m < twoTo n :=
  Nat.pow_lt_pow_right (by decide) h

namespace Binary64

theorem one_eq : one = twoTo 1074 := rfl

theorem pos_one : 0 < one := twoTo_pos 1074

/-- The first whole number that has a neighbour outside the format, in units. -/
theorem wholes_eq : 2 ^ 53 * one = twoTo (53 + 1074) := by
  rw [twoTo_add, two_pow_eq, one_eq]

/-! ## Quotients rounded to whole numbers -/

theorem roundDiv_mul {den : Nat} (hden : 0 < den) (n : Nat) : roundDiv (n * den) den = n := by
  simp [roundDiv, hden]

theorem le_roundDiv {num den k : Nat} (hden : 0 < den) (h : k * den ≤ num) :
    k ≤ roundDiv num den := by
  have hk : k ≤ num / den := (Nat.le_div_iff_mul_le hden).mpr h
  unfold roundDiv
  dsimp only
  split
  · exact hk
  · split <;> omega

theorem roundDiv_le {num den k : Nat} (h : num ≤ k * den) : roundDiv num den ≤ k := by
  rcases Nat.eq_zero_or_pos den with rfl | hden
  · obtain rfl : num = 0 := by simpa using h
    simp [roundDiv]
  have hsplit := Nat.div_add_mod num den
  rcases Nat.lt_or_ge (num / den) k with hk | hk
  · unfold roundDiv
    dsimp only
    split
    · omega
    · split <;> omega
  · -- the quotient is `k` already, so nothing is left to round
    have hle := Nat.mul_le_mul_left den hk
    rw [Nat.mul_comm den k] at hle
    have hq : num = k * den := by omega
    rw [hq, roundDiv_mul hden]

/-- Rounding is off by at most half a unit. -/
theorem roundDiv_near {den : Nat} (hden : 0 < den) (num : Nat) :
    2 * |(roundDiv num den * den - num : ℤ)| ≤ den := by
  have hsplit : (num : ℤ) = den * (num / den : ℕ) + (num % den : ℕ) := by
    exact_mod_cast (Nat.div_add_mod num den).symm
  have hrest : num % den < den := Nat.mod_lt num hden
  have hup : ((num / den : ℕ) + 1 : ℤ) * den - num = den - (num % den : ℕ) := by
    rw [hsplit]
    ring
  have hdown : ((num / den : ℕ) : ℤ) * den - num = -(num % den : ℕ) := by
    rw [hsplit]
    ring
  unfold roundDiv
  dsimp only
  split
  · rw [hdown, abs_neg, Nat.abs_cast]
    omega
  · split
    · push_cast only [Nat.cast_add, Nat.cast_one] at *
      rw [hup, abs_of_nonneg (by omega)]
      omega
    · -- a tie, where either neighbour is half a unit away
      rcases Nat.mod_two_eq_zero_or_one (num / den) with heven | hodd
      · rw [heven, Nat.add_zero, hdown, abs_neg, Nat.abs_cast]
        omega
      · rw [hodd, Nat.cast_add, Nat.cast_one, hup, abs_of_nonneg (by omega)]
        omega

/-! ## The spacing of the format -/

theorem bits_le_iff {n k : Nat} : bits n ≤ k ↔ n < twoTo k := by
  change bits n ≤ k ↔ n < 2 ^ k
  unfold bits
  split
  · next h => simp [h]
  · next h => rw [Nat.add_one_le_iff, Nat.log2_lt h]

theorem spacing_pos (units : Nat) : 0 < spacing units := twoTo_pos _

/-- Numbers with all their digits are at least `2 ^ 52` times their spacing. -/
theorem spacing_mul_le {units : Nat} (h : 2 ^ 52 ≤ units) : spacing units * 2 ^ 52 ≤ units := by
  have hlong : ¬ bits units ≤ 52 := mt bits_le_iff.mp (Nat.not_lt.mpr h)
  have hdigits : ¬ units < twoTo (bits units - 1) := mt bits_le_iff.mpr (by omega)
  have hdown : bits units - 53 + 52 = bits units - 1 := by omega
  calc
    spacing units * 2 ^ 52 = twoTo (bits units - 53 + 52) := (twoTo_add _ 52).symm
    _ ≤ units := by
      rw [hdown]
      exact Nat.not_lt.mp hdigits

theorem spacing_dvd_one {units : Nat} (h : units < 2 ^ 53 * one) : spacing units ∣ one := by
  have hbits : bits units ≤ 53 + 1074 := bits_le_iff.mpr (wholes_eq ▸ h)
  exact twoTo_dvd_twoTo (Nat.sub_le_of_le_add (by omega))

/-- A whole number up to `2 ^ 53` is a number of the format. -/
theorem spacing_dvd_mul_one {k : Nat} (h : k ≤ 2 ^ 53) : spacing (k * one) ∣ k * one := by
  rcases Nat.lt_or_eq_of_le h with hlt | rfl
  · exact (spacing_dvd_one ((Nat.mul_lt_mul_right pos_one).mpr hlt)).mul_left k
  · rw [wholes_eq]
    have hbits : bits (twoTo (53 + 1074)) ≤ 53 + 1074 + 1 :=
      bits_le_iff.mpr (twoTo_lt_twoTo (Nat.lt_succ_self _))
    exact twoTo_dvd_twoTo (by omega)

/-- The format reaches beyond `2 ^ 53`. -/
theorem lt_overflow {units : Nat} (h : units ≤ 2 ^ 53 * one) : units < overflow := by
  rw [wholes_eq] at h
  exact Nat.lt_of_le_of_lt h (twoTo_lt_twoTo (by decide))

/-! ## Quotients in the format -/

/-- The units of the number nearest to `num / den` units, were the format without an end. -/
def nearestUnits (num den : Nat) : Nat :=
  roundDiv num (den * spacing (num / den)) * spacing (num / den)

theorem round_eq (negative : Bool) (num den : Nat) :
    round negative num den =
      if nearestUnits num den < overflow then finite negative (nearestUnits num den)
      else infinite negative := rfl

theorem round_of_le {num den : Nat} (h : nearestUnits num den ≤ 2 ^ 53 * one) (negative : Bool) :
    round negative num den = finite negative (nearestUnits num den) := by
  rw [round_eq, if_pos (lt_overflow h)]

theorem mul_spacing_pos {den : Nat} (hden : 0 < den) (units : Nat) : 0 < den * spacing units :=
  Nat.mul_pos hden (spacing_pos units)

/-- A number of the format is nearest to itself. -/
theorem nearestUnits_self {units den : Nat} (hden : 0 < den) (h : spacing units ∣ units) :
    nearestUnits (units * den) den = units := by
  obtain ⟨count, hcount⟩ := h
  have hnum : units * den = count * (den * spacing units) := by
    calc
      units * den = spacing units * count * den := by rw [← hcount]
      _ = count * (den * spacing units) := by ring
  unfold nearestUnits
  rw [Nat.mul_div_cancel units hden, hnum, roundDiv_mul (mul_spacing_pos hden units),
    Nat.mul_comm count, ← hcount]

/-- A whole number up to `2 ^ 53` is given as it is. -/
theorem round_whole {k den : Nat} (hden : 0 < den) (h : k ≤ 2 ^ 53) (negative : Bool) :
    round negative (k * one * den) den = finite negative (k * one) := by
  have hself := nearestUnits_self hden (spacing_dvd_mul_one h)
  rw [round_of_le (by rw [hself]; exact Nat.mul_le_mul_right one h), hself]

section Below

variable {num den : Nat}

private theorem spacing_quotient_dvd (hden : 0 < den) (h : num < 2 ^ 53 * one * den) :
    spacing (num / den) ∣ one :=
  spacing_dvd_one ((Nat.div_lt_iff_lt_mul hden).mpr h)

/-- Rounding does not go below a whole number. -/
theorem le_nearestUnits (hden : 0 < den) (h : num < 2 ^ 53 * one * den) {k : Nat}
    (hk : k * one * den ≤ num) : k * one ≤ nearestUnits num den := by
  obtain ⟨wholes, hone⟩ := spacing_quotient_dvd hden h
  have hsteps : k * one = k * wholes * spacing (num / den) := by
    rw [hone]
    ring
  rw [hsteps, Nat.mul_assoc, Nat.mul_comm (spacing _) den] at hk
  rw [hsteps]
  exact Nat.mul_le_mul_right _ (le_roundDiv (mul_spacing_pos hden _) hk)

/-- Rounding does not go above a whole number. -/
theorem nearestUnits_le (hden : 0 < den) (h : num < 2 ^ 53 * one * den) {k : Nat}
    (hk : num ≤ k * one * den) : nearestUnits num den ≤ k * one := by
  obtain ⟨wholes, hone⟩ := spacing_quotient_dvd hden h
  have hsteps : k * one = k * wholes * spacing (num / den) := by
    rw [hone]
    ring
  rw [hsteps, Nat.mul_assoc, Nat.mul_comm (spacing _) den] at hk
  rw [hsteps]
  exact Nat.mul_le_mul_right _ (roundDiv_le hk)

/-- Where all digits count, rounding is off by at most one part in `2 ^ 53`. -/
theorem nearestUnits_near (hden : 0 < den) (h : 2 ^ 52 ≤ num / den) :
    2 ^ 53 * |(nearestUnits num den * den - num : ℤ)| ≤ num := by
  have hfine : spacing (num / den) * 2 ^ 52 * den ≤ num :=
    le_trans (Nat.mul_le_mul_right den (spacing_mul_le h)) (Nat.div_mul_le_self num den)
  have hround := roundDiv_near (mul_spacing_pos hden (num / den)) num
  have hunits : (nearestUnits num den * den : ℤ)
      = roundDiv num (den * spacing (num / den)) * (den * spacing (num / den) : ℕ) := by
    unfold nearestUnits
    push_cast
    ring
  have hfine' : 2 ^ 52 * ((den * spacing (num / den) : ℕ) : ℤ) ≤ num := by
    calc
      2 ^ 52 * ((den * spacing (num / den) : ℕ) : ℤ)
        = (spacing (num / den) * 2 ^ 52 * den : ℕ) := by
          push_cast
          ring
      _ ≤ num := by exact_mod_cast hfine
  rw [hunits]
  linarith

end Below

/-- What the number nearest to `num / den` has to do with it: it lies on the same side of each
whole number, and is off by at most one part in `2 ^ 53`. -/
structure Nearest (num den units : Nat) : Prop where
  whole_le : ∀ k, k * den ≤ num → k * one ≤ units
  le_whole : ∀ k, num ≤ k * den → units ≤ k * one
  near : 2 ^ 53 * |(units * den - num * one : ℤ)| ≤ num * one

/-- The number nearest to a quotient below `2 ^ 53`. -/
theorem exists_ofRatio {num den : Nat} (hden : 0 < den) (hsmall : den ≤ twoTo 1022)
    (hnum : num < 2 ^ 53 * den) (negative : Bool) :
    ∃ units, ofRatio negative num den = finite negative units ∧ Nearest num den units := by
  have hrange : num * one < 2 ^ 53 * one * den := by
    rw [Nat.mul_right_comm]
    exact (Nat.mul_lt_mul_right pos_one).mpr hnum
  have whole_le (k : Nat) (h : k * den ≤ num) : k * one ≤ nearestUnits (num * one) den := by
    refine le_nearestUnits hden hrange ?_
    rw [Nat.mul_right_comm]
    exact Nat.mul_le_mul_right one h
  have le_whole (k : Nat) (h : num ≤ k * den) : nearestUnits (num * one) den ≤ k * one := by
    refine nearestUnits_le hden hrange ?_
    rw [Nat.mul_right_comm]
    exact Nat.mul_le_mul_right one h
  refine ⟨_, round_of_le (le_whole _ hnum.le) negative, whole_le, le_whole, ?_⟩
  rcases Nat.eq_zero_or_pos num with rfl | hpos
  · have hzero : nearestUnits (0 * one) den = 0 := by
      have := le_whole 0 (Nat.zero_le _)
      omega
    rw [hzero]
    simp only [Nat.cast_zero, Int.zero_mul, Int.sub_zero, abs_zero, Int.mul_zero, le_refl]
  · have hlong : 2 ^ 52 ≤ num * one / den := by
      rw [Nat.le_div_iff_mul_le hden]
      calc
        2 ^ 52 * den ≤ 2 ^ 52 * twoTo 1022 := Nat.mul_le_mul_left _ hsmall
        _ = one := by rw [one_eq, two_pow_eq, ← twoTo_add]
        _ ≤ num * one := Nat.le_mul_of_pos_left one hpos
    have hnear := nearestUnits_near hden hlong
    rwa [Nat.cast_mul] at hnear

/-! ## Quotient and remainder -/

theorem isNegative_finite (units : Nat) : (finite false units).isNegative = false := rfl

theorem ofUnits_whole {k : Nat} (h : k ≤ 2 ^ 53) :
    ofUnits (k * one : ℕ) = finite false (k * one) := by
  have hwhole := round_whole Nat.one_pos h false
  rw [Nat.mul_one] at hwhole
  unfold ofUnits
  rw [Int.natAbs_natCast, decide_eq_false (by omega), hwhole]

/-- The difference of two numbers is exact where it is a whole number up to `2 ^ 53`. -/
theorem sub_finite_whole {m n k : Nat} (h : m = k * one + n) (hk : k ≤ 2 ^ 53) :
    (finite false m).sub (finite false n) = finite false (k * one) := by
  have hdiff : signed false m - signed false n = (k * one : ℕ) := by
    simp only [signed, Bool.false_eq_true, if_false]
    omega
  unfold sub
  dsimp only
  rw [hdiff, ofUnits_whole hk]
  split
  · next hzero =>
    rw [show k * one = 0 by omega]
    rfl
  · rfl

theorem sub_self_finite (units : Nat) :
    (finite false units).sub (finite false units) = finite false 0 := by
  have h := sub_finite_whole (m := units) (n := units) (k := 0) (by omega) (Nat.zero_le _)
  rwa [Nat.zero_mul] at h

theorem floor_whole (k : Nat) : (finite false (k * one)).floor = finite false (k * one) := by
  simp only [floor, Nat.mul_div_cancel k pos_one]

/-- The quotient of a number up to `2 ^ 53` by a whole number, rounded to the floor, and the
remainder are exact. -/
theorem divModNat_finite {units n : Nat} (hn : 0 < n) (h : units ≤ 2 ^ 53 * one) :
    (finite false units).divModNat n =
      (finite false (units / (n * one) * one), finite false (units % (n * one))) := by
  obtain ⟨quotient, hquotient⟩ : ∃ quotient, quotient = units / (n * one) := ⟨_, rfl⟩
  obtain ⟨rest, hrest⟩ : ∃ rest, rest = units % (n * one) := ⟨_, rfl⟩
  have hsplit : units = quotient * n * one + rest := by
    rw [hquotient, hrest, Nat.mul_assoc, Nat.div_add_mod']
  have hwhole : quotient * n ≤ 2 ^ 53 := Nat.le_of_mul_le_mul_right (by omega) pos_one
  -- the number less its remainder is a whole number, and so is the quotient
  have hdiv : (finite false (quotient * n * one)).divNat n = finite false (quotient * one) := by
    have hround := round_whole hn (le_trans (Nat.le_mul_of_pos_right quotient hn) hwhole) false
    rw [Nat.mul_right_comm] at hround
    exact hround
  have hparts : (if (finite false rest).isZero then
        (finite false (quotient * one), finite false 0)
      else (finite false (quotient * one), finite false rest))
      = (finite false (quotient * one), finite false rest) := by
    split
    · next hzero => rw [show rest = 0 from beq_iff_eq.mp hzero]
    · rfl
  unfold divModNat
  simp only [remNat, ← hquotient, ← hrest, sub_finite_whole hsplit hwhole, hdiv,
    isNegative_finite, Bool.false_eq_true, if_false, hparts, floor_whole, sub_self_finite,
    Nat.mul_zero, Nat.not_lt_zero]

end Binary64

end ReleaseRunner.Number
