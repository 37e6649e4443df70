import ReleaseRunner.Proofs.CommandLine.Course
import ReleaseRunner.Proofs.Files.Tree

/-!
# The configuration of the program

Before a command begins, the program reads its settings and the configuration. They are refused
(`Misconfigured`), cannot be read at all (`Unreadable`), or are there (`Configured`), and there is
nothing else (`configuration_cases`). The main statements say what the program comes to in each
of these cases, and in which world the command begins: `exec_of_misconfigured`,
`exec_of_unreadable` and `exec_of_configured`.
-/

namespace ReleaseRunner.CommandLine

open Config Files Log Session

/-! ## What the settings and the configuration come to -/

/-- The file of the configuration. -/
def Arguments.file (a : Arguments) (settings : Settings) : Path :=
  a.config.getD settings.configFile

/-- What a session is set up with under the arguments. -/
def Arguments.setup (a : Arguments) (settings : Settings) (model : Model) : Setup :=
  ⟨model, { settings with outputFolder := a.outputFolder.getD settings.outputFolder }⟩

/-- The settings or the configuration are refused. -/
inductive Misconfigured (a : Arguments) (w : World) : Prop
  /-- The settings have faults. -/
  | settings {faults : List Fault}
      (h : Settings.read w.environment w.tree = .error (.malformed Settings.title faults))
  /-- There is no file of the configuration. -/
  | missing {settings : Settings} (hsettings : Settings.read w.environment w.tree = .ok settings)
      (h : w.tree.content (a.file settings) = .error .missing)
  /-- The text of the configuration has faults. -/
  | malformed {settings : Settings} {text : String} {faults : List Fault}
      (hsettings : Settings.read w.environment w.tree = .ok settings)
      (htext : w.tree.readText (a.file settings) = .ok text)
      (h : Model.read text = .error faults)

/-- A file cannot be read, and not for the reason that it is missing. -/
inductive Unreadable (a : Arguments) (w : World) : Failure → Prop
  /-- The environment file holds no text. -/
  | environment (h : w.tree.content Settings.environmentFile = .ok .binary) :
      Unreadable a w (.plain .undecodable "")
  /-- The file of the configuration holds no text. -/
  | undecodable {settings : Settings}
      (hsettings : Settings.read w.environment w.tree = .ok settings)
      (h : w.tree.content (a.file settings) = .ok .binary) :
      Unreadable a w (.plain .undecodable "")
  /-- A folder stands at the path of the configuration, or a file on the way to it. -/
  | refused {settings : Settings} {refusal : Refusal}
      (hsettings : Settings.read w.environment w.tree = .ok settings)
      (h : w.tree.content (a.file settings) = .error refusal) (hrefusal : refusal ≠ .missing) :
      Unreadable a w (refusal.failure (a.file settings))

/-- The settings and the configuration are as given. -/
structure Configured (a : Arguments) (w : World) (settings : Settings) (model : Model) :
    Prop where
  accepted : Settings.read w.environment w.tree = .ok settings
  loaded : ∃ text, w.tree.readText (a.file settings) = .ok text ∧ Model.read text = .ok model

/-- The environment file is read, unless it holds no text. -/
theorem readEnvironmentFile_cases (environment : List (String × String)) (tree : Tree) :
    (∃ file, Settings.readEnvironmentFile environment tree = .ok file) ∨
      tree.content Settings.environmentFile = .ok .binary := by
  unfold Settings.readEnvironmentFile Tree.readText
  split
  · next hfile =>
    obtain ⟨content, hcontent⟩ := Tree.isFile_iff.mp hfile
    rw [hcontent]
    cases content with
    | text s => exact .inl ⟨_, rfl⟩
    | binary => exact .inr rfl
  · exact .inl ⟨_, rfl⟩

theorem readEnvironmentFile_of_binary (environment : List (String × String)) {tree : Tree}
    (h : tree.content Settings.environmentFile = .ok .binary) :
    Settings.readEnvironmentFile environment tree = .error (.plain .undecodable "") := by
  unfold Settings.readEnvironmentFile Tree.readText
  rw [if_pos (Tree.isFile_iff.mpr ⟨_, h⟩), h]
  rfl

/-- The settings have faults or none, unless the environment file holds no text. -/
theorem settings_cases (environment : List (String × String)) (tree : Tree) :
    (∃ settings, Settings.read environment tree = .ok settings) ∨
      (∃ faults, Settings.read environment tree = .error (.malformed Settings.title faults)) ∨
      tree.content Settings.environmentFile = .ok .binary := by
  rcases readEnvironmentFile_cases environment tree with ⟨file, hfile⟩ | hbinary
  · unfold Settings.read
    rw [hfile]
    change (∃ settings, Except.mapError _ (Settings.ofSources _) = _) ∨
      (∃ faults, Except.mapError _ (Settings.ofSources _) = _) ∨ _
    generalize Settings.ofSources _ = checked
    cases checked with
    | ok settings => exact .inl ⟨settings, rfl⟩
    | error faults => exact .inr (.inl ⟨faults, rfl⟩)
  · exact .inr (.inr hbinary)

/-- The configuration is refused, cannot be read, or is there. -/
theorem configuration_cases (a : Arguments) (w : World) :
    Misconfigured a w ∨ (∃ f, Unreadable a w f) ∨
      ∃ settings model, Configured a w settings model := by
  rcases settings_cases w.environment w.tree with ⟨settings, hsettings⟩ | ⟨faults, h⟩ | h
  · cases hcontent : w.tree.content (a.file settings) with
    | error refusal =>
      by_cases hmissing : refusal = .missing
      · exact .inl (.missing hsettings (hmissing ▸ hcontent))
      · exact .inr (.inl ⟨_, .refused hsettings hcontent hmissing⟩)
    | ok content =>
      cases content with
      | binary => exact .inr (.inl ⟨_, .undecodable hsettings hcontent⟩)
      | text s =>
        have htext : ∃ text, w.tree.readText (a.file settings) = .ok text := by
          unfold Tree.readText
          rw [hcontent]
          exact ⟨_, rfl⟩
        obtain ⟨text, htext⟩ := htext
        cases hmodel : Model.read text with
        | error faults => exact .inl (.malformed hsettings htext hmodel)
        | ok model => exact .inr (.inr ⟨settings, model, hsettings, text, htext, hmodel⟩)
  · exact .inl (.settings h)
  · exact .inr (.inl ⟨_, .environment h⟩)

/-! ## Up to the command -/

/-- The statements of the environment file that cannot be read, as they are printed. -/
def warnings (w : World) : List Entry :=
  match Settings.readEnvironmentFile w.environment w.tree with
  | .ok file => file.malformedLines.map fun line => .errorLine (malformedLine line)
  | .error _ => []

/-- The world in which the command begins: the warnings are printed, and the console has its
level. -/
def started (w : World) (settings : Settings) : World :=
  { w with journal := w.journal ++ warnings w, console := some settings.logLevel }

/-- What the command comes to under a configuration. -/
def Arguments.task (a : Arguments) (settings : Settings) (model : Model) : Run Unit :=
  if a.command == validateCommand then validate (a.setup settings model) (a.file settings)
  else runWorkflow (a.setup settings model) a

theorem exec_forM_note {β : Type} (f : β → Entry) (l : List β) (w : World) :
    exec (l.forM fun b => note (f b)) w = (.ok (), { w with journal := w.journal ++ l.map f }) := by
  induction l generalizing w with
  | nil =>
    rw [List.map_nil, List.append_nil]
    rfl
  | cons b l ih =>
    show exec (note (f b) >>= fun _ => l.forM fun b => note (f b)) w = _
    rw [exec_bind_ok (exec_note _ _), ih, List.map_cons]
    show (_, { w with journal := w.journal ++ [f b] ++ l.map f }) = _
    rw [List.append_assoc]
    rfl

/-- The environment file was read where the settings were. -/
theorem exists_readEnvironmentFile {environment : List (String × String)} {tree : Tree}
    {settings : Settings} (h : Settings.read environment tree = .ok settings) :
    ∃ file, Settings.readEnvironmentFile environment tree = .ok file := by
  unfold Settings.read at h
  cases hfile : Settings.readEnvironmentFile environment tree with
  | ok file => exact ⟨file, rfl⟩
  | error f =>
    rw [hfile] at h
    cases h

/-- The environment file was read where the settings have faults. -/
theorem exists_readEnvironmentFile_of_faults {environment : List (String × String)} {tree : Tree}
    {faults : List Fault}
    (h : Settings.read environment tree = .error (.malformed Settings.title faults)) :
    ∃ file, Settings.readEnvironmentFile environment tree = .ok file := by
  rcases readEnvironmentFile_cases environment tree with hfile | hbinary
  · exact hfile
  · unfold Settings.read at h
    rw [readEnvironmentFile_of_binary environment hbinary] at h
    cases h

/-- The settings are looked at after the warnings. -/
theorem exec_readSettings {w : World} {file : Dotenv.Reading}
    (hfile : Settings.readEnvironmentFile w.environment w.tree = .ok file) :
    exec readSettings w =
      exec (match Settings.read w.environment w.tree with
        | .ok settings => return some settings
        | .error failure =>
          match failure.kind with
          | .malformed document faults => do
            note (.errorLine "Configuration error (check your .env):")
            note (.errorLine (faultCount document faults))
            return none
          | _ => throw failure)
        { w with journal := w.journal ++ warnings w } := by
  have hwarnings : warnings w =
      file.malformedLines.map fun line => .errorLine (malformedLine line) := by
    unfold warnings
    rw [hfile]
  unfold readSettings
  rw [hwarnings, exec_bind_ok (exec_get w), hfile, exec_bind_ok (exec_lift _ _)]
  exact exec_bind_ok (exec_forM_note _ _ _)

/-- After the settings, the configuration is read in the world in which the command begins. -/
theorem exec_runCommand {a : Arguments} {w : World} {settings : Settings}
    (h : Settings.read w.environment w.tree = .ok settings) :
    exec (runCommand a) w =
      exec (do
        let some model ← readModel (a.file settings) | return 2
        guarded (a.task settings model)) (started w settings) := by
  obtain ⟨file, hfile⟩ := exists_readEnvironmentFile h
  have hsettings := exec_readSettings hfile
  rw [h] at hsettings
  unfold runCommand
  rw [exec_bind_ok hsettings]
  rfl

section
variable {tree : Tree} {file : Path}

theorem load_of_text {text : String} (h : tree.readText file = .ok text) :
    Model.load tree file = (Model.read text).mapError (Failure.malformed modelTitle) := by
  unfold Model.load
  rw [h]
  rfl

theorem load_of_refused {refusal : Refusal} (h : tree.content file = .error refusal) :
    Model.load tree file = .error (refusal.failure file) := by
  unfold Model.load Tree.readText
  rw [h]
  rfl

theorem load_of_binary (h : tree.content file = .ok .binary) :
    Model.load tree file = .error (.plain .undecodable "") := by
  unfold Model.load Tree.readText
  rw [h]
  rfl

end

/-- Logging outside of a session never fails. -/
theorem exec_sayElsewhere (logger : String) (level : Level) (message : String) (extra : Members)
    (traceback : Bool) (w : World) :
    ∃ v, exec (sayElsewhere logger level message extra traceback) w = (.ok (), v) := by
  unfold sayElsewhere
  split
  · exact ⟨_, exec_note _ w⟩
  · exact ⟨w, exec_pure _ w⟩

theorem exec_readModel_missing {file : Path} {w : World}
    (h : w.tree.content file = .error .missing) :
    ∃ v, exec (readModel file) w = (.ok none, v) := by
  obtain ⟨v, hv⟩ := exec_sayElsewhere programLogger .error "Release configuration not found"
    [("path", .text file.text)] false w
  refine ⟨v, ?_⟩
  unfold readModel
  rw [exec_bind_ok (exec_get w), load_of_refused h]
  exact exec_bind_ok hv

theorem exec_readModel_malformed {file : Path} {w : World} {text : String} {faults : List Fault}
    (htext : w.tree.readText file = .ok text) (h : Model.read text = .error faults) :
    ∃ v, exec (readModel file) w = (.ok none, v) := by
  obtain ⟨v, hv⟩ := exec_sayElsewhere programLogger .error "Release configuration is malformed"
    [("path", .text file.text)] false w
  refine ⟨v.noted (.errorLine (faultCount modelTitle faults)), ?_⟩
  unfold readModel
  rw [exec_bind_ok (exec_get w), load_of_text htext, h]
  exact exec_bind_ok hv

theorem exec_readModel_refused {file : Path} {w : World} {refusal : Refusal}
    (h : w.tree.content file = .error refusal) (hrefusal : refusal ≠ .missing) :
    exec (readModel file) w = (.error (refusal.failure file), w) := by
  unfold readModel
  rw [exec_bind_ok (exec_get w), load_of_refused h]
  cases refusal with
  | missing => exact absurd rfl hrefusal
  | _ => rfl

theorem exec_readModel_binary {file : Path} {w : World} (h : w.tree.content file = .ok .binary) :
    exec (readModel file) w = (.error (.plain .undecodable ""), w) := by
  unfold readModel
  rw [exec_bind_ok (exec_get w), load_of_binary h]
  rfl

theorem exec_readModel_loaded {file : Path} {w : World} {text : String} {model : Model}
    (htext : w.tree.readText file = .ok text) (h : Model.read text = .ok model) :
    exec (readModel file) w = (.ok (some model), w) := by
  unfold readModel
  rw [exec_bind_ok (exec_get w), load_of_text htext, h]
  rfl

section
variable {a : Arguments} {w : World}

/-- Where the settings or the configuration are refused, the code is two. -/
theorem exec_of_misconfigured (h : Misconfigured a w) :
    ∃ v, exec (runCommand a) w = (.ok 2, v) := by
  cases h with
  | settings h =>
    obtain ⟨file, hfile⟩ := exists_readEnvironmentFile_of_faults h
    have hsettings := exec_readSettings hfile
    rw [h] at hsettings
    unfold runCommand
    exact ⟨_, by rw [exec_bind_ok hsettings]; rfl⟩
  | missing hsettings h =>
    obtain ⟨v, hv⟩ := exec_readModel_missing (w := started w _) h
    exact ⟨v, by rw [exec_runCommand hsettings, exec_bind_ok hv]; rfl⟩
  | malformed hsettings htext h =>
    obtain ⟨v, hv⟩ := exec_readModel_malformed (w := started w _) htext h
    exact ⟨v, by rw [exec_runCommand hsettings, exec_bind_ok hv]; rfl⟩

/-- Where a file cannot be read otherwise, the program fails with that. -/
theorem exec_of_unreadable {f : Failure} (h : Unreadable a w f) :
    ∃ v, exec (runCommand a) w = (.error f, v) := by
  cases h with
  | environment h =>
    refine ⟨w, ?_⟩
    have hsettings : exec readSettings w = (.error (.plain .undecodable ""), w) := by
      unfold readSettings
      rw [exec_bind_ok (exec_get w), readEnvironmentFile_of_binary _ h]
      rfl
    unfold runCommand
    exact exec_bind_error hsettings
  | @undecodable settings hsettings h =>
    have hmodel := exec_readModel_binary (w := started w settings) h
    exact ⟨_, by rw [exec_runCommand hsettings, exec_bind_error hmodel]⟩
  | @refused settings _ hsettings h hrefusal =>
    have hmodel := exec_readModel_refused (w := started w settings) h hrefusal
    exact ⟨_, by rw [exec_runCommand hsettings, exec_bind_error hmodel]⟩

/-- Otherwise the command decides. -/
theorem exec_of_configured {settings : Settings} {model : Model}
    (h : Configured a w settings model) :
    exec (runCommand a) w = exec (guarded (a.task settings model)) (started w settings) := by
  obtain ⟨text, htext, hmodel⟩ := h.loaded
  have hmodel := exec_readModel_loaded (w := started w settings) htext hmodel
  rw [exec_runCommand h.accepted, exec_bind_ok hmodel]

end

end ReleaseRunner.CommandLine
