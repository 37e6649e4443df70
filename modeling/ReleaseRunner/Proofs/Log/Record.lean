import ReleaseRunner.Log.Record
import ReleaseRunner.Proofs.Json.Members

/-!
# How records are made

A record is made where its message fits the values and it can be shown with its members, and then
all its parts are known (`make?_eq_some_iff`).
-/

namespace ReleaseRunner.Log.Record

variable {logger message : String} {level : Level} {values : List Json} {extra : Members}
  {traceback : Bool} {record : Record}

theorem make?_eq_some_iff : make? logger level message values extra traceback = some record ↔
    isShowable extra = true ∧ ∃ text, fill? message values = some text ∧
      record = ⟨level, logger, text, extra.filter fun (name, _) => isShown name, traceback⟩ := by
  unfold make?
  cases isShowable extra with
  | false => simp
  | true => simp [Option.map_eq_some_iff, eq_comm (b := record)]

theorem make?_of_fill? {text : String} (hextra : isShowable extra = true)
    (hfill : fill? message values = some text) :
    make? logger level message values extra traceback =
      some ⟨level, logger, text, extra.filter fun (name, _) => isShown name, traceback⟩ :=
  make?_eq_some_iff.mpr ⟨hextra, text, hfill, rfl⟩

/-- The first name of a record's own is refused. -/
theorem refusal?_eq_some_iff {f : Failure} : refusal? extra = some f ↔
    ∃ key, (extra.map Prod.fst).find? (ownNames.contains ·) = some key ∧
      f = .missingKey s!"Attempt to overwrite {Text.quoted key} in LogRecord" := by
  unfold refusal?
  rw [List.find?_map, Option.map_eq_some_iff]
  simp only [Option.map_eq_some_iff, exists_exists_and_eq_and, Function.comp_def, eq_comm (a := f)]

/-- Nothing is refused where no name is a record's own. -/
theorem refusal?_eq_none_iff :
    refusal? extra = none ↔ ∀ key ∈ extra.map Prod.fst, key ∉ ownNames := by
  unfold refusal?
  simp

theorem isShowable_append {other : Members} :
    isShowable (extra ++ other) = (isShowable extra && isShowable other) :=
  List.all_append

/-- A text can be shown under any name but that of the message. -/
theorem isShowable_text {name : String} (h : name ≠ messageName) (text : String) :
    isShowable [(name, .text text)] = true := by
  unfold isShowable
  simp [h, Json.isWritable]

end ReleaseRunner.Log.Record
