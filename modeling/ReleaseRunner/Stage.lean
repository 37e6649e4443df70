/-!
# Stages of a release

The stages that a release is made of, and the workflows that users ask for, each a list of
stages.
-/

namespace ReleaseRunner

/-- A stage of a release. -/
inductive Stage where
  | download
  | assemble
  | changelog
  | catalog
  | checksum
  | sign
  | deploy
  | upload
  | release
  | prepare
  | package
  | publish
  | announce
deriving Repr, DecidableEq

namespace Stage

/-- All stages. -/
def all : List Stage :=
  [download, assemble, changelog, catalog, checksum, sign, deploy, upload, release, prepare,
    package, publish, announce]

/-- The name of a stage. -/
def name : Stage → String
  | download => "download"
  | assemble => "assemble"
  | changelog => "changelog"
  | catalog => "catalog"
  | checksum => "checksum"
  | sign => "sign"
  | deploy => "deploy"
  | upload => "upload"
  | release => "release"
  | prepare => "prepare"
  | package => "package"
  | publish => "publish"
  | announce => "announce"

/-- The stage of a name. -/
def ofName? (s : String) : Option Stage :=
  all.find? (·.name == s)

end Stage

namespace Plan

/-- The stages of a release of the built artefacts. -/
def release : List Stage :=
  [.changelog, .checksum, .catalog, .sign, .deploy, .upload, .release]

/-- The stages that make packages ready. -/
def prepare : List Stage := [.checksum, .prepare]

/-- The workflows by name, in the order in which they are offered. -/
def all : List (String × List Stage) :=
  [("download", [.download]),
    ("assemble", [.assemble]),
    ("changelog", [.changelog]),
    ("checksum", [.checksum]),
    ("catalog", [.catalog]),
    ("sign", [.checksum, .sign]),
    ("deploy", [.deploy]),
    ("upload", [.checksum, .sign, .upload]),
    ("release", release),
    ("prepare", prepare),
    ("package", prepare ++ [.package]),
    ("publish", prepare ++ [.package, .publish]),
    ("announce", [.changelog, .announce]),
    ("full_release", release ++ [.prepare, .package, .publish, .announce])]

/-- The stages of the workflow of a name. -/
def stages? (name : String) : Option (List Stage) :=
  all.lookup name

end Plan

end ReleaseRunner
