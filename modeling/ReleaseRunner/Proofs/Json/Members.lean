import Mathlib.Data.List.Nodup
import ReleaseRunner.Json.Value

/-!
# Looking up members

Members are looked up by their keys, the last one of a key counting. Binding a key replaces what
it was bound to, provided that no key is there more than once, and keeps it so. The main statement
is `lookup_withMembers`: of two lists, the one that is bound later comes first.
-/

namespace ReleaseRunner

/-- Taking out the pairs of one key leaves the values of the others. -/
theorem lookup_filter_of_ne {κ β : Type} [BEq κ] [LawfulBEq κ] [DecidableEq κ] {key other : κ}
    (h : other ≠ key) (pairs : List (κ × β)) :
    (pairs.filter (·.1 ≠ key)).lookup other = pairs.lookup other := by
  induction pairs with
  | nil => rfl
  | cons pair pairs ih =>
    obtain ⟨first, value⟩ := pair
    by_cases hkey : first = key
    · have hother : (other == first) = false := by
        rw [hkey]
        exact beq_eq_false_iff_ne.mpr h
      rw [List.filter_cons_of_neg (by simp [hkey]), ih, List.lookup_cons, hother]
    · rw [List.filter_cons_of_pos (by simp [hkey]), List.lookup_cons, List.lookup_cons, ih]

namespace Json

variable {α : Type} {members new : List (String × α)} {key : String}

theorem lookup_nil (key : String) : lookup ([] : List (String × α)) key = none := rfl

/-- What stands later counts. -/
theorem lookup_append (members new : List (String × α)) (key : String) :
    lookup (members ++ new) key = (lookup new key).or (lookup members key) := by
  unfold lookup
  rw [List.reverse_append, List.find?_append]
  cases new.reverse.find? (·.1 == key) <;> rfl

theorem lookup_singleton (other key : String) (value : α) :
    lookup [(other, value)] key = if other = key then some value else none := by
  unfold lookup
  rw [List.reverse_singleton, List.find?_singleton]
  by_cases h : other = key <;> simp [h]

theorem lookup_cons (other : String) (value : α) (members : List (String × α)) (key : String) :
    lookup ((other, value) :: members) key =
      (lookup members key).or (if other = key then some value else none) := by
  rw [← List.singleton_append, lookup_append, lookup_singleton]

/-- A key that is not there is bound to nothing. -/
theorem lookup_eq_none_iff : lookup members key = none ↔ key ∉ members.map Prod.fst := by
  unfold lookup
  rw [Option.map_eq_none_iff, List.find?_eq_none]
  simp only [List.mem_reverse, beq_iff_eq, List.mem_map, not_exists, not_and]

/-- What a key is bound to stands beside it, and the key is not there again after that. -/
theorem lookup_eq_some_iff {value : α} : lookup members key = some value ↔
    ∃ before after, members = before ++ (key, value) :: after ∧ key ∉ after.map Prod.fst := by
  constructor
  · intro h
    unfold lookup at h
    obtain ⟨entry, hentry, rfl⟩ := Option.map_eq_some_iff.mp h
    obtain ⟨hkey, after, before, hreverse, hnone⟩ := List.find?_eq_some_iff_append.mp hentry
    obtain rfl : entry.1 = key := by simpa using hkey
    refine ⟨before.reverse, after.reverse, ?_, fun hmem => ?_⟩
    · rw [← List.reverse_reverse members, hreverse, List.reverse_append, List.reverse_cons,
        List.append_assoc]
      rfl
    · obtain ⟨other, hother, hsame⟩ := List.mem_map.mp hmem
      simpa [hsame] using hnone other (List.mem_reverse.mp hother)
  · rintro ⟨before, after, rfl, hlast⟩
    rw [lookup_append, lookup_cons, lookup_eq_none_iff.mpr hlast, if_pos rfl]
    rfl

/-- Of the members whose keys are picked out, a key that is picked has what it had. -/
theorem lookup_filter (picked : String → Bool) (members : List (String × α)) (key : String) :
    lookup (members.filter fun (k, _) => picked k) key =
      if picked key then lookup members key else none := by
  unfold lookup
  rw [← List.filter_reverse, List.find?_filter]
  cases hpicked : picked key with
  | true =>
    have hsame : (fun entry : String × α =>
        decide (picked entry.1 = true ∧ (entry.1 == key) = true)) = (·.1 == key) := by
      funext entry
      by_cases hkey : entry.1 = key <;> simp [hkey, hpicked]
    rw [if_pos rfl, ← hsame]
  | false =>
    rw [if_neg Bool.false_ne_true, Option.map_eq_none_iff, List.find?_eq_none]
    rintro entry -
    by_cases hkey : entry.1 = key <;> simp [hkey, hpicked]

theorem mem_keys_member (members : List (String × α)) (key other : String) (value : α) :
    other ∈ (member members key value).map Prod.fst ↔
      other ∈ members.map Prod.fst ∨ other = key := by
  induction members with
  | nil => simp [member]
  | cons entry members ih =>
    unfold member
    split
    · next h =>
      simp only [List.map_cons, List.mem_cons, h]
      tauto
    · simp only [List.map_cons, List.mem_cons, ih, or_assoc]

/-- No key is there more than once after a key was bound, if none was before. -/
theorem nodup_member (h : (members.map Prod.fst).Nodup) (key : String) (value : α) :
    ((member members key value).map Prod.fst).Nodup := by
  induction members with
  | nil => simp [member]
  | cons entry members ih =>
    obtain ⟨hnew, hrest⟩ := List.nodup_cons.mp h
    unfold member
    split
    · next hkey => exact List.nodup_cons.mpr ⟨hkey ▸ hnew, hrest⟩
    · next hkey =>
      refine List.nodup_cons.mpr ⟨fun hmem => ?_, ih hrest⟩
      rcases (mem_keys_member members key entry.1 value).mp hmem with hmem | hsame
      · exact hnew hmem
      · exact hkey hsame

theorem lookup_member (h : (members.map Prod.fst).Nodup) (key other : String) (value : α) :
    lookup (member members key value) other =
      if key = other then some value else lookup members other := by
  induction members with
  | nil => rw [member, lookup_singleton, lookup_nil]
  | cons entry members ih =>
    obtain ⟨hnew, hrest⟩ := List.nodup_cons.mp h
    unfold member
    split
    · next hkey =>
      rw [lookup_cons, lookup_cons, hkey]
      by_cases hother : key = other
      · have hnone : lookup members other = none :=
          lookup_eq_none_iff.mpr (hother ▸ hkey ▸ hnew)
        rw [if_pos hother, if_pos hother, hnone, Option.none_or]
      · rw [if_neg hother, if_neg hother, if_neg hother, Option.or_none]
    · next hkey =>
      rw [lookup_cons, ih hrest, lookup_cons]
      by_cases hother : key = other
      · rw [if_pos hother, if_pos hother, Option.some_or]
      · rw [if_neg hother, if_neg hother]

/-- What is bound in turn comes before what was there, the last one first. -/
theorem lookup_withMembers (h : (members.map Prod.fst).Nodup) (key : String) :
    lookup (withMembers members new) key = (lookup new key).or (lookup members key) := by
  unfold withMembers
  induction new generalizing members with
  | nil => rfl
  | cons entry new ih =>
    rw [List.foldl_cons, ih (nodup_member h _ _), lookup_member h, lookup_cons]
    split
    · rw [Option.or_assoc, Option.some_or]
    · rw [Option.or_none]

end Json

end ReleaseRunner
