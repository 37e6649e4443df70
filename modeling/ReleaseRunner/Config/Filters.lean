import ReleaseRunner.Config.Schema

/-!
# Filters of a workflow

What the stages act on may be narrowed by names to include and names to exclude, for each kind
of thing that a stage deals with. The runner itself only reports the filters.
-/

namespace ReleaseRunner.Config

/-- What a filter is about. -/
inductive Subject where
  | downloaderTypes
  | downloaderNames
  | assemblers
  | distributions
  | catalogers
  | packagers
  | deployerTypes
  | deployerNames
  | uploaderTypes
  | uploaderNames
  | announcers
deriving Repr, DecidableEq

namespace Subject

/-- The subjects in the order of their filters. -/
def all : List Subject :=
  [downloaderTypes, downloaderNames, assemblers, distributions, catalogers, packagers,
    deployerTypes, deployerNames, uploaderTypes, uploaderNames, announcers]

/-- The name of a subject. -/
def name : Subject → String
  | downloaderTypes => "downloader_types"
  | downloaderNames => "downloader_names"
  | assemblers => "assemblers"
  | distributions => "distributions"
  | catalogers => "catalogers"
  | packagers => "packagers"
  | deployerTypes => "deployer_types"
  | deployerNames => "deployer_names"
  | uploaderTypes => "uploader_types"
  | uploaderNames => "uploader_names"
  | announcers => "announcers"

end Subject

/-- A filter, by what it is about and which way it works. -/
structure Filter where
  subject : Subject
  excluding : Bool
deriving Repr, DecidableEq

namespace Filter

/-- All filters in order. -/
def all : List Filter :=
  Subject.all.flatMap fun subject => [⟨subject, false⟩, ⟨subject, true⟩]

/-- The name of a filter. -/
def name (filter : Filter) : String :=
  (if filter.excluding then "excluded_" else "included_") ++ filter.subject.name

/-- The filter of a name. -/
def ofName? (s : String) : Option Filter :=
  all.find? (·.name == s)

end Filter

/-- The names that each filter holds. -/
structure Filters where
  names : Filter → List String

namespace Filters

/-- The name of the document in fault reports. -/
def title : String := "WorkflowFilters"

/-- No filter holds a name. -/
def none : Filters := ⟨fun _ => []⟩

/-- The filters with a further name in one of them. -/
def add (filters : Filters) (filter : Filter) (name : String) : Filters :=
  ⟨fun f => if f = filter then filters.names f ++ [name] else filters.names f⟩

/-- The filters that hold names, in order. -/
def active (filters : Filters) : List (String × List String) :=
  Filter.all.filterMap fun f =>
    if (filters.names f).isEmpty then .none else some (f.name, filters.names f)

/-- The filters of a list of filters with names. -/
def ofNames (names : List (Filter × List String)) : Filters :=
  ⟨fun f => (names.lookup f).getD []⟩

/-- The filters of a document. -/
def read : Reader Filters :=
  record fun m =>
    (allOf (Filter.all.map fun f =>
      (optional m f.name [] (list text)).map (f, ·))).map ofNames

end Filters

end ReleaseRunner.Config
