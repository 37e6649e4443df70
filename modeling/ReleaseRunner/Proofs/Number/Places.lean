import Mathlib.Algebra.Group.Nat.Defs
import ReleaseRunner.Number.Decimal

/-!
# A fixed number of decimal places

What is written with so many places is the whole part, a point, and exactly so many digits of
the fraction (`pointed_eq`).
-/

namespace ReleaseRunner.Number.Binary64

/-- The last so many decimal digits of a number. -/
def lastDigits : Nat → Nat → List Char
  | 0, _ => []
  | places + 1, n => lastDigits places (n / 10) ++ [(n % 10).digitChar]

@[simp] theorem length_lastDigits (places n : Nat) : (lastDigits places n).length = places := by
  induction places generalizing n with
  | zero => rfl
  | succ places ih => simp [lastDigits, ih]

/-- Digits with noughts in front of them, so that there are more than `places`, are the whole
part and the digits behind the point. -/
theorem padded_eq (places n : Nat) :
    List.replicate (places + 1 - (Nat.toDigits 10 n).length) '0' ++ Nat.toDigits 10 n =
      Nat.toDigits 10 (n / 10 ^ places) ++ lastDigits places n := by
  induction places generalizing n with
  | zero =>
    have hlength : 0 < (Nat.toDigits 10 n).length := List.length_pos_iff.mpr Nat.toDigits_ne_nil
    simp [show 0 + 1 - (Nat.toDigits 10 n).length = 0 by omega, lastDigits]
  | succ places ih =>
    have hdiv : n / 10 ^ (places + 1) = n / 10 / 10 ^ places := by
      rw [Nat.div_div_eq_div_mul, Nat.pow_succ']
    rw [hdiv, lastDigits, ← List.append_assoc, ← ih]
    rcases Nat.lt_or_ge n 10 with hn | hn
    · rw [Nat.toDigits_of_lt_base hn, Nat.div_eq_of_lt hn, Nat.mod_eq_of_lt hn]
      change _ = List.replicate places '0' ++ ['0'] ++ _
      rw [← List.replicate_succ']
      rfl
    · rw [Nat.toDigits_of_base_le (by decide) hn, ← List.append_assoc, List.length_append]
      simp [Nat.add_sub_add_right]

theorem pointed_eq (n : Nat) {places : Nat} (h : places ≠ 0) (full : Bool) :
    pointed n places full =
      Nat.toDigits 10 (n / 10 ^ places) ++ '.' :: lastDigits places n := by
  have hwhole : (Nat.toDigits 10 (n / 10 ^ places) ++ lastDigits places n).length - places
      = (Nat.toDigits 10 (n / 10 ^ places)).length := by
    rw [List.length_append, length_lastDigits, Nat.add_sub_cancel]
  unfold pointed
  simp only [padded_eq, hwhole, List.take_left', List.drop_left']
  simp [h]

end ReleaseRunner.Number.Binary64
