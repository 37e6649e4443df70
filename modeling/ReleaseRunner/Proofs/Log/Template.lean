import Mathlib.Data.List.TakeWhile
import ReleaseRunner.Log.Template

/-!
# Filling plain places

A place `%s` takes the next value as it stands, whatever percent signs the value holds. So the
message of a template with such places alone is known for all values.
-/

namespace ReleaseRunner.Log

/-- A place without flags, width and precision leaves a value as it stands. -/
theorem filled?_plain {value : Json} (h : value.isWritable = true) :
    filled? {} 's' value = some value.plain := by
  unfold filled? padded
  simp [h]

/-- A plain place takes the next value. -/
theorem place?_plain {value : Json} (h : value.isWritable = true) (values : List Json)
    (rest : List Char) :
    place? (.list (value :: values)) ('s' :: rest) = some (value.plain, .list values, rest) := by
  have hplace : place? (.list (value :: values)) ('s' :: rest) =
      (filled? {} 's' value).bind fun text => some (text, .list values, rest) := rfl
  rw [hplace, filled?_plain h]
  rfl

section
variable {before : List Char} (h : '%' ∉ before)
include h

private theorem ne_percent_of_mem : ∀ c ∈ before, (c != '%') = true := by
  intro c hc
  exact bne_iff_ne.mpr fun heq => h (heq ▸ hc)

/-- A text without percent signs stands for itself. -/
theorem fillFrom_text (places : Nat) : fillFrom (places + 1) (.list []) before = some before := by
  have hkept : before.takeWhile (· != '%') = before :=
    List.takeWhile_eq_self_iff.mpr (ne_percent_of_mem h)
  have hnone : before.dropWhile (· != '%') = [] :=
    List.dropWhile_eq_nil_iff.mpr (ne_percent_of_mem h)
  rw [fillFrom, hkept, hnone]
  rfl

/-- The text in front of a plain place is kept, and the value comes after it. -/
theorem fillFrom_place (places : Nat) {value : Json} (hvalue : value.isWritable = true)
    (values : List Json) (rest : List Char) :
    fillFrom (places + 1) (.list (value :: values)) (before ++ '%' :: 's' :: rest) =
      (fillFrom places (.list values) rest).map (before ++ value.plain ++ ·) := by
  have hkept : (before ++ '%' :: 's' :: rest).takeWhile (· != '%') = before := by
    rw [List.takeWhile_append_of_pos (ne_percent_of_mem h)]
    simp
  have hrest : (before ++ '%' :: 's' :: rest).dropWhile (· != '%') = '%' :: 's' :: rest := by
    rw [List.dropWhile_append_of_pos (ne_percent_of_mem h)]
    simp
  rw [fillFrom, hkept, hrest]
  show (place? (.list (value :: values)) ('s' :: rest) >>= _) = _
  rw [place?_plain hvalue, Option.map_eq_bind]
  rfl

end

/-- The message of a template with one plain place. -/
theorem fill?_one {message : String} {before after : List Char}
    (hmessage : message.toList = before ++ '%' :: 's' :: after) (hbefore : '%' ∉ before)
    (hafter : '%' ∉ after) (text : String) :
    fill? message [.text text] = some (String.ofList (before ++ text.toList ++ after)) := by
  have hlength : message.length = before.length + after.length + 1 + 1 := by
    rw [← String.length_toList, hmessage]
    simp
    omega
  have hfill : fill? message [.text text] =
      (fillFrom (message.length + 1) (.list [.text text]) message.toList).map String.ofList := rfl
  rw [hfill, hlength, hmessage, fillFrom_place hbefore _ rfl, fillFrom_text hafter]
  rfl

/-- The message of a template with two plain places. -/
theorem fill?_two {message : String} {before between after : List Char}
    (hmessage : message.toList =
      before ++ '%' :: 's' :: (between ++ '%' :: 's' :: after)) (hbefore : '%' ∉ before)
    (hbetween : '%' ∉ between) (hafter : '%' ∉ after) (first second : String) :
    fill? message [.text first, .text second] =
      some (String.ofList (before ++ first.toList ++ (between ++ second.toList ++ after))) := by
  have hlength : message.length = before.length + between.length + after.length + 3 + 1 := by
    rw [← String.length_toList, hmessage]
    simp
    omega
  have hfill : fill? message [.text first, .text second] =
      (fillFrom (message.length + 1) (.list [.text first, .text second]) message.toList).map
        String.ofList := rfl
  rw [hfill, hlength, hmessage, fillFrom_place hbefore _ rfl, fillFrom_place hbetween _ rfl,
    fillFrom_text hafter]
  rfl

end ReleaseRunner.Log
