import ReleaseRunner.Files.Tree
import ReleaseRunner.Proofs.Json.Members

/-!
# The content of files

Where a path leads to a file, it has content, and the other way round (`isFile_iff`). What was
written to a file is what it holds (`content_of_writeText`): the way to the file does not lead
through the file itself, so it stays the same.
-/

namespace ReleaseRunner.Files.Tree

variable {tree : Tree} {path : Path}

theorem content_of_place {place : List String} (h : tree.place path = .ok place) :
    tree.content path =
      match tree.node? place with
      | some (.file content) => .ok content
      | some .folder => .error .isAFolder
      | none => .error .missing := by
  unfold content
  rw [h]
  rfl

theorem content_of_refused {refusal : Refusal} (h : tree.place path = .error refusal) :
    tree.content path = .error refusal := by
  unfold content
  rw [h]
  rfl

/-- A path leads to a file just if what is there can be read. -/
theorem isFile_iff : tree.isFile path = true ↔ ∃ content, tree.content path = .ok content := by
  unfold isFile
  cases hplace : tree.place path with
  | error refusal =>
    rw [content_of_refused hplace]
    exact ⟨fun h => (by cases h), fun ⟨_, h⟩ => (by cases h)⟩
  | ok place =>
    rw [content_of_place hplace]
    dsimp only
    rcases tree.node? place with _ | _ | content
    · exact ⟨fun h => (by cases h), fun ⟨_, h⟩ => (by cases h)⟩
    · exact ⟨fun h => (by cases h), fun ⟨_, h⟩ => (by cases h)⟩
    · exact ⟨fun _ => ⟨content, rfl⟩, fun _ => rfl⟩

/-! ## Writing -/

theorem node?_put_self {place : List String} (h : place ≠ []) (node : Node) :
    (tree.put place node).node? place = some node := by
  have hplace : place.isEmpty = false := by
    cases place with
    | nil => exact absurd rfl h
    | cons name names => rfl
  unfold node? put
  rw [hplace]
  exact List.lookup_cons_self

/-- Other places stay as they are. -/
theorem node?_put_of_ne {place other : List String} (h : other ≠ place) (node : Node) :
    (tree.put place node).node? other = tree.node? other := by
  unfold node? put
  split
  · rfl
  · dsimp only
    rw [List.lookup_cons, beq_eq_false_iff_ne.mpr h]
    exact lookup_filter_of_ne h tree.nodes

/-- Names lead to the same place after a node was put where no folder was. -/
theorem walk_put {place : List String} (hplace : tree.node? place ≠ some .folder) (node : Node)
    {start names goal : List String} (h : tree.walk start names = .ok goal) :
    (tree.put place node).walk start names = .ok goal := by
  fun_induction tree.walk start names with
  | case1 start => exact h
  | case2 start rest ih => exact ih h
  | case3 start name hname =>
    rw [walk.eq_3 _ _ _ hname]
    exact h
  | case4 start name rest hname hrest hfolder ih =>
    -- a folder on the way stands at another place
    have hother : start ++ [name] ≠ place := fun h => hplace (h ▸ hfolder)
    rw [walk.eq_4 _ _ _ _ hname hrest, node?_put_of_ne hother, hfolder]
    exact ih h
  | case5 => cases h
  | case6 => cases h

/-- What was written to a file is what it holds. -/
theorem content_of_writeText {written : Tree} {s : String}
    (h : tree.writeText path s = .ok written) : written.content path = .ok (.text s) := by
  unfold writeText at h
  cases hplace : tree.place path with
  | error refusal =>
    rw [hplace] at h
    cases h
  | ok place =>
    rw [hplace] at h
    have hput : tree.node? place ≠ some .folder ∧ written = tree.put place (.file (.text s)) := by
      dsimp only [bind, Except.bind] at h
      split at h
      · cases h
      · next hfolder =>
        cases h
        exact ⟨fun hnode => hfolder hnode, rfl⟩
    obtain ⟨hfolder, rfl⟩ := hput
    have hnonempty : place ≠ [] := by
      rintro rfl
      exact hfolder rfl
    rw [content_of_place (walk_put hfolder _ hplace), node?_put_self hnonempty]

end ReleaseRunner.Files.Tree
