import Mathlib.Tactic.Positivity
import ReleaseRunner.Clock
import ReleaseRunner.Duration
import ReleaseRunner.Proofs.Number.Places
import ReleaseRunner.Proofs.Number.Rounding

/-!
# Durations in text, from microseconds

The seconds between two instants are a whole number of microseconds, rounded to the binary
format. The text of them is that of some hours, minutes and thousandths of a second
(`ofBinary_secondsTo`), all as the microseconds want them but for two things. Seconds are
rounded when the minutes are split off already, so a text may have sixty of them. And from
`2 ^ 53` microseconds on, which are 285 years, not every microsecond has a number of its own.
-/

namespace ReleaseRunner.Duration

open Number Binary64

/-! ## The text -/

/-- Thousandths of a second as seconds, with all three places. -/
def inSeconds (thousandths : Nat) : String :=
  s!"{thousandths / 1000}.{thousandths / 100 % 10}{thousandths / 10 % 10}{thousandths % 10}"

/-- Hours, minutes and thousandths of a second in text: hours if there are any, and minutes
behind hours or if there are any. -/
def written (hours minutes thousandths : Nat) : String :=
  if hours ≠ 0 then s!"{hours}h {minutes}m {inSeconds thousandths}s"
  else if minutes ≠ 0 then s!"{minutes}m {inSeconds thousandths}s"
  else s!"{inSeconds thousandths}s"

private theorem toList_toString (n : Nat) : (toString n).toList = Nat.toDigits 10 n :=
  String.toList_ofList

private theorem toList_toString_digit (n : Nat) :
    (toString (n % 10)).toList = [(n % 10).digitChar] := by
  rw [toList_toString, Nat.toDigits_of_lt_base (Nat.mod_lt n (by decide))]

/-- The seconds are written with three places. -/
theorem fixed_three (units : Nat) :
    (finite false units).fixed 3 = inSeconds (roundDiv (units * 1000) one) := by
  have hplaces (n : Nat) : pointed n 3 false = (inSeconds n).toList := by
    have hpoint : (toString ".").toList = ['.'] := rfl
    rw [pointed_eq n (by decide) false]
    simp only [inSeconds, lastDigits, Nat.div_div_eq_div_mul, String.toList_append, hpoint,
      toList_toString_digit, toList_toString (n / 1000)]
    simp
  change String.ofList (signText false ++ pointed (roundDiv (units * 1000) one) 3 false) = _
  rw [hplaces]
  exact String.ofList_toList

theorem shown_natCast (minutes thousandths : Nat) :
    shown minutes (inSeconds thousandths) = written (minutes / 60) (minutes % 60) thousandths := by
  have hhours : (minutes : ℤ).fdiv 60 = (minutes / 60 : ℕ) :=
    Int.fdiv_eq_ediv_of_nonneg _ (by decide)
  have hminutes : (minutes : ℤ).fmod 60 = (minutes % 60 : ℕ) :=
    Int.fmod_eq_emod_of_nonneg _ (by decide)
  unfold shown written
  simp only [hhours, hminutes, ne_eq, Int.natCast_eq_zero]
  rfl

/-- A number of seconds up to `2 ^ 53` in text. -/
theorem ofBinary_finite {units : Nat} (h : units ≤ 2 ^ 53 * one) :
    ofBinary (finite false units) =
      .ok (written (units / (60 * one) / 60) (units / (60 * one) % 60)
        (roundDiv (units % (60 * one) * 1000) one)) := by
  have hminutes : (finite false (units / (60 * one) * one)).truncate?
      = some ((units / (60 * one) : ℕ) : ℤ) := by
    simp only [truncate?, signed, Bool.false_eq_true, if_false, Nat.mul_div_cancel _ pos_one]
  unfold ofBinary
  rw [divModNat_finite (by decide) h]
  simp only [hminutes, fixed_three, shown_natCast]

/-! ## What the microseconds want -/

/-- What hours, minutes and thousandths of a second have to do with the microseconds that they
are shown for. -/
structure Splits (micros hours minutes thousandths : Nat) : Prop where
  minutes_lt : minutes < 60
  seconds_le : thousandths ≤ 60000
  hours_iff : hours ≠ 0 ↔ 3600000000 ≤ micros
  minutes_iff : hours ≠ 0 ∨ minutes ≠ 0 ↔ 60000000 ≤ micros
  near : 2 ^ 53 * |(1000 * (3600000 * hours + 60000 * minutes + thousandths) - micros : ℤ)|
    ≤ 500 * 2 ^ 53 + micros
  hours_eq : micros < 2 ^ 53 → hours = micros / 3600000000
  minutes_eq : micros < 2 ^ 53 → minutes = micros / 60000000 % 60
  half : micros < 2 ^ 53 →
    |(1000 * (3600000 * hours + 60000 * minutes + thousandths) - micros : ℤ)| ≤ 500
  seconds_lt : micros < 2 ^ 53 → micros % 60000000 < 59999500 → thousandths < 60000
  seconds_eq : micros < 2 ^ 53 → 59999500 < micros % 60000000 → thousandths = 60000

/-- Below `2 ^ 53` microseconds rounding takes or adds less than a microsecond. -/
theorem lt_whole {micros units k : Nat} (h : Nearest micros 1000000 units)
    (hmicros : micros < 2 ^ 53) (hk : micros < k * 1000000) : units < k * one := by
  have hone : (0 : ℤ) < one := by exact_mod_cast pos_one
  have hround : 2 ^ 53 * ((units * 1000000 : ℤ) - micros * one) ≤ micros * one :=
    le_trans (Int.mul_le_mul_of_nonneg_left (le_abs_self _) (by decide)) h.near
  have hsmall : (micros * one : ℤ) < 2 ^ 53 * one :=
    Int.mul_lt_mul_of_pos_right (by exact_mod_cast hmicros) hone
  have hnext : ((micros + 1) * one : ℤ) ≤ k * 1000000 * one :=
    Int.mul_le_mul_of_nonneg_right (by exact_mod_cast hk) hone.le
  by_contra hge
  have hge' : (k * one : ℤ) ≤ units := by exact_mod_cast Nat.not_lt.mp hge
  linarith

/-- The minutes in the number nearest to so many microseconds are the minutes in them. -/
theorem minutes_nearest {micros units : Nat} (h : Nearest micros 1000000 units)
    (hmicros : micros < 2 ^ 53) : units / (60 * one) = micros / 60000000 := by
  have hbelow : micros / 60000000 * 60 * one ≤ units := h.whole_le _ (by omega)
  have habove : units < (micros / 60000000 + 1) * 60 * one := lt_whole h hmicros (by omega)
  rw [Nat.mul_assoc] at hbelow habove
  exact Nat.div_eq_of_lt_le hbelow habove

/-- All seconds and thousandths that are shown, together, against the microseconds. -/
theorem near_nearest {micros units : Nat} (h : Nearest micros 1000000 units) :
    2 ^ 53 * |(1000 * (60000 * (units / (60 * one) : ℕ)
        + roundDiv (units % (60 * one) * 1000) one) - micros : ℤ)| ≤ 500 * 2 ^ 53 + micros := by
  have hone : (0 : ℤ) < one := by exact_mod_cast pos_one
  generalize hminutes : units / (60 * one) = minutes
  generalize hrest : units % (60 * one) = rest
  have hsplit : (units : ℤ) = 60 * one * minutes + rest := by
    rw [← hminutes, ← hrest]
    exact_mod_cast (Nat.div_add_mod units (60 * one)).symm
  -- half a thousandth is lost over the seconds, and the rest over the microseconds
  have hlost : 2 * |(roundDiv (rest * 1000) one * one - (rest * 1000 : ℕ) : ℤ)| ≤ one :=
    roundDiv_near pos_one (rest * 1000)
  generalize roundDiv (rest * 1000) one = thousandths at hlost ⊢
  have hsum : ((1000 * (60000 * minutes + thousandths) - micros) * one : ℤ)
      = 1000 * (thousandths * one - (rest * 1000 : ℕ)) + (units * 1000000 - micros * one) := by
    rw [hsplit]
    push_cast
    ring
  have hboth : |(1000 * (60000 * minutes + thousandths) - micros : ℤ)| * one
      ≤ 1000 * |(thousandths * one - (rest * 1000 : ℕ) : ℤ)|
        + |(units * 1000000 - micros * one : ℤ)| := by
    calc
      |(1000 * (60000 * minutes + thousandths) - micros : ℤ)| * one
        = |((1000 * (60000 * minutes + thousandths) - micros) * one : ℤ)| := by
          rw [abs_mul, Nat.abs_cast]
      _ ≤ |(1000 * (thousandths * one - (rest * 1000 : ℕ)) : ℤ)|
          + |(units * 1000000 - micros * one : ℤ)| := by
          rw [hsum]
          exact abs_add_le _ _
      _ = 1000 * |(thousandths * one - (rest * 1000 : ℕ) : ℤ)|
          + |(units * 1000000 - micros * one : ℤ)| := by
          rw [abs_mul]
          rfl
  have hnear := h.near
  refine Int.le_of_mul_le_mul_right ?_ hone
  push_cast at hnear
  linarith

theorem Splits.of_minutes {micros minutes thousandths : Nat} (hseconds : thousandths ≤ 60000)
    (hmany : ∀ k, k * 60000000 ≤ micros → k ≤ minutes)
    (hminutes : micros < 2 ^ 53 → minutes = micros / 60000000)
    (hnear : 2 ^ 53 * |(1000 * (60000 * minutes + thousandths) - micros : ℤ)|
      ≤ 500 * 2 ^ 53 + micros) : Splits micros (minutes / 60) (minutes % 60) thousandths := by
  have htotal : (3600000 * (minutes / 60 : ℕ) + 60000 * (minutes % 60 : ℕ) : ℤ)
      = 60000 * minutes := by omega
  have hhour := hmany 60
  have hminute := hmany 1
  have hhalf (h : micros < 2 ^ 53) :
      |(1000 * (60000 * minutes + thousandths) - micros : ℤ)| ≤ 500 := by omega
  exact {
    minutes_lt := Nat.mod_lt _ (by decide)
    seconds_le := hseconds
    hours_iff := by omega
    minutes_iff := by omega
    near := by rwa [htotal]
    hours_eq := by omega
    minutes_eq := by omega
    half := by rwa [htotal]
    seconds_lt := fun h hbelow => by
      have := abs_le.mp (hhalf h)
      have := hminutes h
      omega
    seconds_eq := fun h habove => by
      have := abs_le.mp (hhalf h)
      have := hminutes h
      omega }

/-! ## Durations between instants -/

theorem million_le : 1000000 ≤ twoTo 1022 :=
  le_trans (by decide : 1000000 ≤ twoTo 20) (twoTo_lt_twoTo (by decide)).le

theorem secondsTo_eq {start stop : Instant} {micros : Nat}
    (h : stop.micros = start.micros + micros) :
    start.secondsTo stop = ofRatio false micros 1000000 := by
  have hdiff : stop.micros - start.micros = micros := by omega
  unfold Instant.secondsTo
  simp only [hdiff, Int.natAbs_natCast, decide_eq_false (by omega : ¬ (micros : ℤ) < 0)]

/-- The duration between two instants is shown as hours, minutes and thousandths of a second
that belong to its microseconds. There may be as many of them as between any two dates, and
more. -/
theorem ofBinary_secondsTo (start stop : Instant) (micros : Nat)
    (hstop : stop.micros = start.micros + micros) (hmicros : micros < 2 ^ 53 * 1000000) :
    ∃ hours minutes thousandths,
      ofBinary (start.secondsTo stop) = .ok (written hours minutes thousandths) ∧
        Splits micros hours minutes thousandths := by
  obtain ⟨units, hunits, hnearest⟩ := exists_ofRatio (by decide) million_le hmicros false
  have hpos : 0 < 60 * one := Nat.mul_pos (by decide) pos_one
  have hrange : units ≤ 2 ^ 53 * one := hnearest.le_whole _ hmicros.le
  rw [secondsTo_eq hstop, hunits, ofBinary_finite hrange]
  refine ⟨_, _, _, rfl, .of_minutes ?_ ?_ (minutes_nearest hnearest) (near_nearest hnearest)⟩
  · have hrest := Nat.mod_lt units hpos
    exact roundDiv_le (by omega)
  · -- rounding does not lose a whole minute
    intro k hk
    rw [Nat.le_div_iff_mul_le hpos, ← Nat.mul_assoc]
    exact hnearest.whole_le (k * 60) (by rwa [Nat.mul_assoc])

theorem ofBinary_secondsTo_hour : ∃ hours minutes thousandths,
    ofBinary ((⟨0⟩ : Instant).secondsTo ⟨3725250000⟩)
        = .ok (written hours minutes thousandths) ∧
      Splits 3725250000 hours minutes thousandths :=
  ofBinary_secondsTo ⟨0⟩ ⟨3725250000⟩ 3725250000 (by decide) (by decide)

/-- Two minutes less 400 microseconds are shown with sixty seconds, which none of the texts is
that have less than sixty and are off by at most half a thousandth. -/
theorem ofBinary_sixtySeconds :
    ofBinary ((⟨0⟩ : Instant).secondsTo ⟨119999600⟩) = .ok "1m 60.000s" ∧
      ¬ ∃ hours minutes thousandths : Nat,
        ofBinary ((⟨0⟩ : Instant).secondsTo ⟨119999600⟩)
          = .ok (written hours minutes thousandths) ∧
        minutes < 60 ∧ thousandths < 60000 ∧
        |(1000 * (3600000 * hours + 60000 * minutes + thousandths) - 119999600 : ℤ)| ≤ 500 := by
  have hshown : ofBinary ((⟨0⟩ : Instant).secondsTo ⟨119999600⟩) = .ok "1m 60.000s" := by
    decide +kernel
  refine ⟨hshown, ?_⟩
  rintro ⟨hours, minutes, thousandths, htext, hminutes, hthousandths, hnear⟩
  obtain ⟨rfl, rfl, rfl⟩ : hours = 0 ∧ minutes = 2 ∧ thousandths = 0 := by
    have := abs_le.mp hnear
    omega
  rw [hshown] at htext
  exact absurd (Except.ok.inj htext) (by decide)

end ReleaseRunner.Duration
