import Mathlib.Data.List.Forall2
import ReleaseRunner.Proofs.Json.Members
import ReleaseRunner.Proofs.Session.Disposal
import ReleaseRunner.Session.Extensions

/-!
# All extensions or none

What comes of an enabled extension is told by the installed extensions alone (`Yields`): a listener,
or a failure where the extension is not installed, cannot be loaded, fails, or makes something else
or a listener that cannot be given its policy. The main statement is `loadExtensions_allOrNothing`:
either a listener comes of each enabled extension and all of them are registered, or loading fails
with the first failure, no later extension is asked for a listener, and those that were made before
are closed.

A roster does not tell who was asked for a listener, so this is read off the journal
(`World.factories`).
-/

namespace ReleaseRunner.Session

open Config Log

/-! ## What comes of an extension -/

/-- The extension is the last of those that are installed under the name. -/
def Installed (installed : List (String × Extension)) (name : String)
    (extension : Extension) : Prop :=
  ∃ before after, installed = before ++ (name, extension) :: after ∧
    name ∉ after.map Prod.fst

/-- What comes of an extension that is to be loaded as a specification says. -/
inductive Yields (installed : List (String × Extension)) (name : String) (spec : ExtensionSpec) :
    Except Failure Listener → Prop
  | missing (h : name ∉ installed.map Prod.fst) :
      Yields installed name spec
        (.error (.release s!"Extension {Text.quoted name} is not installed"))
  | unloadable {failure : Failure} (h : Installed installed name (.unloadable failure)) :
      Yields installed name spec (.error failure)
  | failure {make : Members → Product} {failure : Failure}
      (h : Installed installed name (.factory make))
      (hmake : make spec.properties = .failure failure) :
      Yields installed name spec (.error failure)
  | stranger {make : Members → Product} (h : Installed installed name (.factory make))
      (hmake : make spec.properties = .stranger) :
      Yields installed name spec
        (.error (.release s!"Extension {Text.quoted name} did not produce a WorkflowListener"))
  | listener {make : Members → Product} {own : String} {tolerant : Bool} {script : Script}
      (h : Installed installed name (.factory make))
      (hmake : make spec.properties = .listener own tolerant script) :
      Yields installed name spec
        (.ok ⟨own, spec.tolerant.getD tolerant, spec.properties, script⟩)
  | rigid {make : Members → Product} {own : String} {tolerant : Bool} {script : Script}
      {failure : Failure} (h : Installed installed name (.factory make))
      (hmake : make spec.properties = .rigid own tolerant script failure)
      (hspec : spec.tolerant = none) :
      Yields installed name spec (.ok ⟨own, tolerant, spec.properties, script⟩)
  | refusal {make : Members → Product} {own : String} {tolerant : Bool} {script : Script}
      {failure : Failure} (h : Installed installed name (.factory make))
      (hmake : make spec.properties = .rigid own tolerant script failure)
      (hspec : spec.tolerant.isSome = true) : Yields installed name spec (.error failure)

/-- What comes of an extension, computed. -/
def yielded (installed : List (String × Extension)) (name : String) (spec : ExtensionSpec) :
    Except Failure Listener :=
  match Json.lookup installed name with
  | none => .error (.release s!"Extension {Text.quoted name} is not installed")
  | some (.unloadable failure) => .error failure
  | some (.factory make) =>
    match make spec.properties with
    | .failure failure => .error failure
    | .stranger =>
      .error (.release s!"Extension {Text.quoted name} did not produce a WorkflowListener")
    | .listener own tolerant script =>
      .ok ⟨own, spec.tolerant.getD tolerant, spec.properties, script⟩
    | .rigid own tolerant script failure =>
      if spec.tolerant.isSome then .error failure else .ok ⟨own, tolerant, spec.properties, script⟩

section
variable {installed : List (String × Extension)} {name : String} {spec : ExtensionSpec}
  {result : Except Failure Listener}

theorem lookup_of_installed {extension : Extension} (h : Installed installed name extension) :
    Json.lookup installed name = some extension := Json.lookup_eq_some_iff.mpr h

theorem yields_iff : Yields installed name spec result ↔ yielded installed name spec = result := by
  unfold yielded
  constructor
  · intro h
    cases h with
    | missing h => rw [Json.lookup_eq_none_iff.mpr h]
    | unloadable h => rw [lookup_of_installed h]
    | failure h hmake => simp only [lookup_of_installed h, hmake]
    | stranger h hmake => simp only [lookup_of_installed h, hmake]
    | listener h hmake => simp only [lookup_of_installed h, hmake]
    | rigid h hmake hspec => simp [lookup_of_installed h, hmake, hspec]
    | refusal h hmake hspec => simp only [lookup_of_installed h, hmake, hspec, if_true]
  · rintro rfl
    split
    · next h => exact .missing (Json.lookup_eq_none_iff.mp h)
    · next h => exact .unloadable (Json.lookup_eq_some_iff.mp h)
    · next h =>
      have h := Json.lookup_eq_some_iff.mp h
      split
      · next hmake => exact .failure h hmake
      · next hmake => exact .stranger h hmake
      · next hmake => exact .listener h hmake
      · next hmake =>
        cases hspec : spec.tolerant with
        | none => exact .rigid h hmake hspec
        | some tolerant => exact .refusal h hmake (by rw [hspec, Option.isSome_some])

/-- Only one thing comes of an extension. -/
theorem Yields.unique {other : Except Failure Listener} (h : Yields installed name spec result)
    (h' : Yields installed name spec other) : result = other := by
  rw [← yields_iff.mp h, yields_iff.mp h']

end

/-- A listener apart from its policy, which it may change itself. -/
def Listener.identity (listener : Listener) : String × Members × Script :=
  (listener.name, listener.properties, listener.script)

/-- The enabled extensions among those of a configuration. -/
def enabled (specs : List (String × ExtensionSpec)) : List (String × ExtensionSpec) :=
  specs.filter (·.2.enabled)

theorem enabled_cons_of_disabled {entry : String × ExtensionSpec} (h : entry.2.enabled = false)
    (specs : List (String × ExtensionSpec)) : enabled (entry :: specs) = enabled specs :=
  List.filter_cons_of_neg (by simp [h])

theorem enabled_cons_of_enabled {entry : String × ExtensionSpec} (h : entry.2.enabled = true)
    (specs : List (String × ExtensionSpec)) : enabled (entry :: specs) = entry :: enabled specs :=
  List.filter_cons_of_pos h

/-- A listener comes of each of the extensions, and these are they. -/
def Makes (installed : List (String × Extension)) (specs : List (String × ExtensionSpec))
    (listeners : List Listener) : Prop :=
  List.Forall₂ (fun entry listener => Yields installed entry.1 entry.2 (.ok listener)) specs
    listeners

section
variable {installed : List (String × Extension)} {specs : List (String × ExtensionSpec)}
  {listeners : List Listener}

theorem Makes.ok_of_mem (h : Makes installed specs listeners) {entry : String × ExtensionSpec}
    (hentry : entry ∈ specs) :
    ∃ listener, Yields installed entry.1 entry.2 (.ok listener) := by
  obtain ⟨i, hi, rfl⟩ := List.mem_iff_getElem.mp hentry
  exact ⟨_, h.get hi (h.length_eq ▸ hi)⟩

theorem Makes.made_of_mem (h : Makes installed specs listeners) {listener : Listener}
    (hlistener : listener ∈ listeners) :
    ∃ entry ∈ specs, Yields installed entry.1 entry.2 (.ok listener) := by
  obtain ⟨i, hi, rfl⟩ := List.mem_iff_getElem.mp hlistener
  have hi' : i < specs.length := h.length_eq ▸ hi
  exact ⟨specs[i], List.getElem_mem hi', h.get hi' hi⟩

end

/-- The extension is the first of the enabled ones of which no listener comes. -/
structure Fails (installed : List (String × Extension))
    (specs earlier : List (String × ExtensionSpec)) (name : String) (spec : ExtensionSpec)
    (listeners : List Listener) (failure : Failure) : Prop where
  split : ∃ later, enabled specs = earlier ++ (name, spec) :: later
  makes : Makes installed earlier listeners
  fault : Yields installed name spec (.error failure)

namespace Fails

variable {installed : List (String × Extension)} {specs earlier : List (String × ExtensionSpec)}
  {name : String} {spec : ExtensionSpec} {listeners : List Listener} {failure : Failure}
  {entry : String × ExtensionSpec}

theorem head (henabled : spec.enabled = true) (h : Yields installed name spec (.error failure))
    (specs : List (String × ExtensionSpec)) :
    Fails installed ((name, spec) :: specs) [] name spec [] failure :=
  ⟨⟨enabled specs, enabled_cons_of_enabled henabled specs⟩, .nil, h⟩

theorem skip (henabled : entry.2.enabled = false)
    (h : Fails installed specs earlier name spec listeners failure) :
    Fails installed (entry :: specs) earlier name spec listeners failure := by
  refine ⟨?_, h.makes, h.fault⟩
  rw [enabled_cons_of_disabled henabled]
  exact h.split

theorem cons {listener : Listener} (henabled : entry.2.enabled = true)
    (hmade : Yields installed entry.1 entry.2 (.ok listener))
    (h : Fails installed specs earlier name spec listeners failure) :
    Fails installed (entry :: specs) (entry :: earlier) name spec (listener :: listeners)
      failure := by
  refine ⟨?_, .cons hmade h.makes, h.fault⟩
  obtain ⟨later, hsplit⟩ := h.split
  exact ⟨later, by rw [enabled_cons_of_enabled henabled, hsplit, List.cons_append]⟩

end Fails

/-- The call of a factory that an extension may need. -/
def factoryCall (entry : String × ExtensionSpec) : String × Members :=
  (entry.1, entry.2.properties)

/-- The factories that were called, with the properties. -/
def World.factories (entries : List Entry) : List (String × Members) :=
  entries.filterMap fun
    | .factory name properties => some (name, properties)
    | _ => none

@[simp] theorem World.factories_append (a b : List Entry) :
    factories (a ++ b) = factories a ++ factories b :=
  List.filterMap_append

/-! ## Loading one after the other -/

/-- The factories are called and the listeners registered, and nothing else happens that changes
more than the journal. -/
structure Loads (calls : List (String × Members)) (listeners : List Listener) (u v : World) :
    Prop where
  rest : v = { u with
    roster := listeners.foldl Roster.enlist u.roster, journal := v.journal }
  journal : ∃ new, v.journal = u.journal ++ new ∧ World.factories new = calls ∧
    World.closings new = []

namespace Loads

variable {calls calls' : List (String × Members)} {listeners listeners' : List Listener}
  {u v w : World}

theorem refl (w : World) : Loads [] [] w w :=
  ⟨rfl, [], (List.append_nil _).symm, rfl, rfl⟩

theorem trans (h : Loads calls listeners u v) (h' : Loads calls' listeners' v w) :
    Loads (calls ++ calls') (listeners ++ listeners') u w := by
  obtain ⟨new, hnew, hcalls, hclosings⟩ := h.journal
  obtain ⟨new', hnew', hcalls', hclosings'⟩ := h'.journal
  refine ⟨?_, new ++ new', ?_, ?_, ?_⟩
  · rw [h'.rest, h.rest, List.foldl_append]
  · rw [hnew', hnew, List.append_assoc]
  · rw [World.factories_append, hcalls, hcalls']
  · rw [World.closings_append, hclosings, hclosings']
    rfl

theorem extensions (h : Loads calls listeners u v) : v.extensions = u.extensions := by
  rw [h.rest]

theorem roster (h : Loads calls listeners u v) :
    v.roster = listeners.foldl Roster.enlist u.roster := by
  rw [h.rest]

theorem noted (w : World) (entry : Entry) (h : World.closings [entry] = []) :
    Loads (World.factories [entry]) [] w (w.noted entry) :=
  ⟨rfl, [entry], rfl, rfl, h⟩

theorem enlist (listener : Listener) (w : World) :
    Loads [] [listener] w { w with roster := w.roster.enlist listener } :=
  ⟨rfl, [], (List.append_nil _).symm, rfl, rfl⟩

/-- What is logged changes nothing more than the journal. -/
theorem sayElsewhere (logger : String) (level : Level) (message : String) (extra : Members)
    (traceback : Bool) (w : World) :
    ∃ v, exec (Session.sayElsewhere logger level message extra traceback) w = (.ok (), v) ∧
      Loads [] [] w v := by
  unfold Session.sayElsewhere
  split
  · next record _ => exact ⟨_, exec_note _ w, noted w (.record record .made) rfl⟩
  · exact ⟨w, exec_pure _ w, refl w⟩

end Loads

theorem foldl_enlist_closed (listeners : List Listener) (r : Roster) :
    (listeners.foldl Roster.enlist r).closed = r.closed := by
  induction listeners generalizing r with
  | nil => rfl
  | cons listener listeners ih => exact ih (r.enlist listener)

theorem foldl_enlist_made (listeners : List Listener) (r : Roster) :
    (listeners.foldl Roster.enlist r).made = r.made ++ listeners := by
  induction listeners generalizing r with
  | nil => exact (List.append_nil _).symm
  | cons listener listeners ih =>
    rw [List.foldl_cons, ih (r.enlist listener)]
    exact List.append_assoc r.made [listener] listeners

/-- Where each listener that was made is registered, it stays so. -/
theorem foldl_enlist_order (listeners : List Listener) {r : Roster}
    (h : r.order = List.range r.made.length) :
    (listeners.foldl Roster.enlist r).order =
      List.range (listeners.foldl Roster.enlist r).made.length := by
  induction listeners generalizing r with
  | nil => exact h
  | cons listener listeners ih =>
    refine ih ?_
    show r.order ++ [r.made.length] = List.range (r.made ++ [listener]).length
    rw [h, List.length_append, List.length_singleton, List.range_succ]

section
variable {name : String} {spec : ExtensionSpec} {w : World}

theorem loadExtension_disabled (h : spec.enabled = false) (w : World) :
    ∃ v, exec (loadExtension name spec) w = (.ok (), v) ∧ Loads [] [] w v := by
  unfold loadExtension
  simp only [h, Bool.not_false, if_true]
  obtain ⟨v, hsay, hloads⟩ := Loads.sayElsewhere rosterLogger .info "Extension disabled"
    [("extension", .text name)] false w
  exact ⟨v, by rw [exec_bind_ok hsay, exec_pure], hloads⟩

/-- A listener that has its policy is registered. -/
def registerMade (name : String) (listener : Listener) : Run Unit := do
  enlist listener
  sayElsewhere rosterLogger .info "Extension loaded"
    [("extension", .text name), ("continue_on_error", .bool listener.tolerant)] false

theorem exec_loadExtension (h : spec.enabled = true) (w : World) :
    exec (loadExtension name spec) w =
      match Json.lookup w.extensions name with
      | none => (.error (.release s!"Extension {Text.quoted name} is not installed"), w)
      | some extension =>
        exec (extension.make name spec.properties >>= fun made =>
          made.adopt spec.tolerant >>= registerMade name) w := by
  unfold loadExtension
  simp only [h, Bool.not_true, Bool.false_eq_true, if_false]
  rw [exec_bind_ok (exec_get w)]
  cases Json.lookup w.extensions name <;> rfl

theorem exec_registerMade (name : String) (listener : Listener) (hopen : w.roster.closed = false) :
    ∃ v, exec (registerMade name listener) w = (.ok (), v) ∧ Loads [] [listener] w v := by
  obtain ⟨v, hsay, hsaid⟩ := Loads.sayElsewhere rosterLogger .info "Extension loaded"
    [("extension", .text name), ("continue_on_error", .bool listener.tolerant)] false
    { w with roster := w.roster.enlist listener }
  refine ⟨v, ?_, (Loads.enlist listener w).trans hsaid⟩
  unfold registerMade
  rw [exec_bind_ok (exec_enlist_of_open _ hopen)]
  exact hsay

/-- The factory is asked for a listener before anything else. -/
theorem exec_make (make : Members → Product) (name : String) (properties : Members) (w : World) :
    exec (Extension.make (.factory make) name properties) w =
      exec (match make properties with
        | .listener own tolerant script => return ⟨⟨own, tolerant, properties, script⟩, none⟩
        | .rigid own tolerant script failure =>
          return ⟨⟨own, tolerant, properties, script⟩, some failure⟩
        | .stranger =>
          throw (.release s!"Extension {Text.quoted name} did not produce a WorkflowListener")
        | .failure failure => raise failure) (w.noted (.factory name properties)) :=
  exec_bind_ok (exec_note _ w)

/-- A listener that refuses no policy has its own where it is given none. -/
theorem exec_adopt (listener : Listener) (policy : Option Bool) (w : World) :
    exec (Made.adopt ⟨listener, none⟩ policy) w =
      (.ok { listener with tolerant := policy.getD listener.tolerant }, w) := by
  cases policy <;> rfl

/-- The listener that comes of an extension is registered. -/
theorem loadExtension_ok {listener : Listener} (henabled : spec.enabled = true)
    (hopen : w.roster.closed = false) (h : Yields w.extensions name spec (.ok listener)) :
    ∃ v, exec (loadExtension name spec) w = (.ok (), v) ∧
      Loads [(name, spec.properties)] [listener] w v := by
  have hasked : Loads [(name, spec.properties)] [] w
      (w.noted (.factory name spec.properties)) := .noted w (.factory _ _) rfl
  obtain ⟨v, hregister, hloads⟩ :=
    exec_registerMade (w := w.noted (.factory name spec.properties)) name listener hopen
  refine ⟨v, ?_, hasked.trans hloads⟩
  rw [exec_loadExtension henabled]
  cases h with
  | @listener make own tolerant script hinstalled hmake =>
    have hcall := exec_make make name spec.properties w
    simp only [hmake] at hcall
    simp only [lookup_of_installed hinstalled]
    rw [exec_bind_ok hcall, exec_bind_ok (exec_adopt _ _ _)]
    exact hregister
  | @rigid make own tolerant script failure hinstalled hmake hspec =>
    have hcall := exec_make make name spec.properties w
    simp only [hmake] at hcall
    simp only [lookup_of_installed hinstalled, hspec]
    rw [exec_bind_ok hcall]
    exact hregister

/-- The failure that comes of an extension is that of its loading. Its factory is called, if there
is one, and nothing is registered. -/
theorem loadExtension_error {failure : Failure} (henabled : spec.enabled = true)
    (h : Yields w.extensions name spec (.error failure)) :
    ∃ calls v, exec (loadExtension name spec) w = (.error failure, v) ∧ Loads calls [] w v ∧
      calls <+: [(name, spec.properties)] := by
  have hasked : Loads [(name, spec.properties)] [] w
      (w.noted (.factory name spec.properties)) := .noted w (.factory _ _) rfl
  have hraised : ∀ u, Loads [] [] u (u.noted (.raised failure)) :=
    fun u => .noted u (.raised failure) rfl
  rw [exec_loadExtension henabled]
  -- in the last three cases the factory was called before the extension failed
  cases h with
  | missing h =>
    rw [Json.lookup_eq_none_iff.mpr h]
    exact ⟨[], w, rfl, .refl w, List.nil_prefix⟩
  | unloadable h =>
    simp only [lookup_of_installed h]
    exact ⟨[], _, exec_bind_error (exec_raise failure w), hraised w, List.nil_prefix⟩
  | @failure make _ h hmake =>
    have hcall := exec_make make name spec.properties w
    simp only [hmake] at hcall
    simp only [lookup_of_installed h]
    exact ⟨_, _, exec_bind_error hcall, hasked.trans (hraised _), List.prefix_rfl⟩
  | @stranger make h hmake =>
    have hcall := exec_make make name spec.properties w
    simp only [hmake] at hcall
    simp only [lookup_of_installed h]
    exact ⟨_, _, exec_bind_error hcall, hasked, List.prefix_rfl⟩
  | @refusal make own tolerant script _ h hmake hspec =>
    have hcall := exec_make make name spec.properties w
    simp only [hmake] at hcall
    obtain ⟨policy, hpolicy⟩ := Option.isSome_iff_exists.mp hspec
    simp only [lookup_of_installed h, hpolicy]
    rw [exec_bind_ok hcall]
    exact ⟨_, _, exec_bind_error (exec_raise failure _), hasked.trans (hraised _), List.prefix_rfl⟩

end

/-- What loading comes to without what is done where it fails: it gets to the end, or to the first
extension of which no listener comes. -/
inductive Course (specs : List (String × ExtensionSpec)) (w : World) :
    Except Failure Unit → World → Prop
  | done {listeners : List Listener} {v : World}
      (makes : Makes w.extensions (enabled specs) listeners)
      (loads : Loads ((enabled specs).map factoryCall) listeners w v) : Course specs w (.ok ()) v
  | stopped {earlier : List (String × ExtensionSpec)} {name : String} {spec : ExtensionSpec}
      {listeners : List Listener} {failure : Failure} {calls : List (String × Members)} {v : World}
      (fails : Fails w.extensions specs earlier name spec listeners failure)
      (loads : Loads (earlier.map factoryCall ++ calls) listeners w v)
      (called : calls <+: [(name, spec.properties)]) : Course specs w (.error failure) v

namespace Course

variable {specs : List (String × ExtensionSpec)} {entry : String × ExtensionSpec} {u v w : World}
  {result : Except Failure Unit}

theorem skip (henabled : entry.2.enabled = false) (hskipped : Loads [] [] w u)
    (h : Course specs u result v) : Course (entry :: specs) w result v := by
  cases h with
  | done hmakes hloads =>
    rw [hskipped.extensions] at hmakes
    refine .done (enabled_cons_of_disabled henabled specs ▸ hmakes) ?_
    rw [enabled_cons_of_disabled henabled]
    exact hskipped.trans hloads
  | stopped hfails hloads hcalls =>
    rw [hskipped.extensions] at hfails
    exact .stopped (hfails.skip henabled) (hskipped.trans hloads) hcalls

theorem cons {listener : Listener} (henabled : entry.2.enabled = true)
    (hmade : Yields w.extensions entry.1 entry.2 (.ok listener))
    (hfirst : Loads [factoryCall entry] [listener] w u) (h : Course specs u result v) :
    Course (entry :: specs) w result v := by
  cases h with
  | @done listeners _ hmakes hloads =>
    rw [hfirst.extensions] at hmakes
    have hall : Makes w.extensions (enabled (entry :: specs)) (listener :: listeners) := by
      rw [enabled_cons_of_enabled henabled]
      exact .cons hmade hmakes
    refine .done hall ?_
    rw [enabled_cons_of_enabled henabled]
    exact hfirst.trans hloads
  | stopped hfails hloads hcalls =>
    rw [hfirst.extensions] at hfails
    exact .stopped (hfails.cons henabled hmade) (hfirst.trans hloads) hcalls

end Course

/-- One extension after the other is loaded, up to the first of which no listener comes. -/
theorem loading_course (specs : List (String × ExtensionSpec)) {w : World}
    (hopen : w.roster.closed = false) :
    ∃ result v, exec (specs.forM fun (name, spec) => loadExtension name spec) w = (result, v) ∧
      Course specs w result v := by
  induction specs generalizing w with
  | nil => exact ⟨.ok (), w, rfl, .done .nil (.refl w)⟩
  | cons entry specs ih =>
    obtain ⟨name, spec⟩ := entry
    have hcons : ((name, spec) :: specs).forM (fun (name, spec) => loadExtension name spec) =
        loadExtension name spec >>= fun _ =>
          specs.forM fun (name, spec) => loadExtension name spec := rfl
    rw [hcons]
    cases henabled : spec.enabled with
    | false =>
      obtain ⟨u, hu, hskipped⟩ := @loadExtension_disabled name spec henabled w
      obtain ⟨result, v, hv, hcourse⟩ := ih (w := u) (by rw [hskipped.roster]; exact hopen)
      rw [exec_bind_ok hu]
      exact ⟨result, v, hv, hcourse.skip henabled hskipped⟩
    | true =>
      cases hyielded : yielded w.extensions name spec with
      | error failure =>
        have hfault := yields_iff.mpr hyielded
        obtain ⟨calls, v, hv, hloads, hcalls⟩ := loadExtension_error henabled hfault
        exact ⟨.error failure, v, exec_bind_error hv,
          .stopped (.head henabled hfault specs) hloads hcalls⟩
      | ok listener =>
        have hmade := yields_iff.mpr hyielded
        obtain ⟨u, hu, hfirst⟩ := loadExtension_ok henabled hopen hmade
        -- the roster is open still, so the rest is loaded in the same way
        obtain ⟨result, v, hv, hcourse⟩ := ih (w := u) (by rw [hfirst.roster]; exact hopen)
        rw [exec_bind_ok hu]
        exact ⟨result, v, hv, hcourse.cons henabled hmade hfirst⟩

/-! ## All or none -/

theorem exec_closingOnFailure (x : Run Unit) (w : World) :
    exec (closingOnFailure x) w =
      match exec x w with
      | (.ok (), v) => (.ok (), v)
      | (.error f, v) =>
        match exec cleanup v with
        | (.ok (), u) => (.error f, u)
        | (.error g, u) => (.error g, u) := by
  show closingOnFailure x w = _
  unfold closingOnFailure
  change (match exec x w with
    | (Except.ok (), w) => (Except.ok (), w)
    | (Except.error f, w) => exec (cleanup >>= fun _ => throw f : Run Unit) w) = _
  rcases exec x w with ⟨f | _, v⟩
  · dsimp only
    rw [exec_bind]
    rcases exec cleanup v with ⟨g | _, u⟩ <;> rfl
  · rfl

theorem filterMap_getElem?_range {α : Type} (l : List α) :
    (List.range l.length).filterMap (l[·]?) = l := by
  induction l with
  | nil => rfl
  | cons a l ih =>
    rw [List.length_cons, List.range_succ_eq_map, List.filterMap_cons, List.filterMap_map]
    show a :: (List.range l.length).filterMap (l[·]?) = a :: l
    rw [ih]

namespace Loads

variable {calls : List (String × Members)} {listeners : List Listener} {w v : World}
  (h : Loads calls listeners w v) (hroster : w.roster = .empty)
include h hroster

theorem closed_eq : v.roster.closed = false := by
  rw [h.roster, foldl_enlist_closed, hroster]
  rfl

theorem made_eq : v.roster.made = listeners := by
  rw [h.roster, foldl_enlist_made, hroster]
  exact List.nil_append listeners

theorem order_eq : v.roster.order = List.range listeners.length := by
  have horder := foldl_enlist_order listeners (r := w.roster) (by rw [hroster]; rfl)
  rw [← h.roster, h.made_eq hroster] at horder
  exact horder

theorem registered_eq : v.roster.registered = listeners := by
  unfold Roster.registered
  rw [h.closed_eq hroster, h.order_eq hroster, h.made_eq hroster]
  exact filterMap_getElem?_range listeners

end Loads

/-- What is closed of listeners of which none aborts are all of them, in order. -/
theorem cleanup_of_unaborting {w : World} (hopen : w.roster.closed = false)
    (hnone : ∀ id ∈ w.roster.order, w.roster.abortsAt id = false) :
    ∃ v new, exec cleanup w = (.ok (), v) ∧ v.journal = w.journal ++ new ∧
      (∀ entry ∈ new, entry.isClosing = true) ∧ World.closings new = w.roster.order ∧
      v.roster.closed = true ∧
      v.roster.made.map Listener.identity = w.roster.made.map Listener.identity := by
  -- which entries are noted and which listeners are closed by them is known from two statements
  obtain ⟨new, hcleaned⟩ := cleanup_cleans w
  obtain ⟨new', hnew', hdue, hreturns⟩ := closings_cleanup hopen
  obtain rfl : new' = new := List.append_cancel_left (hnew'.symm.trans hcleaned.journal)
  refine ⟨_, new', Prod.ext (hreturns hnone) rfl, hnew', hcleaned.closing, ?_, hcleaned.closed,
    sameMade_cleanup (fun _ _ => rfl) w⟩
  rw [hdue]
  exact upTo_eq_self.mpr fun id hid => hnone id (List.dropLast_subset _ hid)

/-- All enabled extensions were loaded. -/
structure LoadedAll (specs : List (String × ExtensionSpec)) (w v : World) (new : List Entry) :
    Prop where
  /-- One listener is registered for each of them, in their order. -/
  registered : Makes w.extensions (enabled specs) v.roster.registered
  /-- No other one was made. -/
  made : v.roster.made = v.roster.registered
  /-- Each factory was called once. -/
  factories : World.factories new = (enabled specs).map factoryCall
  /-- No listener was closed. -/
  opened : v.roster.closed = false
  closings : World.closings new = []

/-- The loading was given up at an extension, and the listeners of the earlier ones are closed. -/
structure Unwound (earlier : List (String × ExtensionSpec)) (name : String) (spec : ExtensionSpec)
    (listeners : List Listener) (v : World) (new : List Entry) : Prop where
  /-- No other listeners were made. -/
  made : v.roster.made.map Listener.identity = listeners.map Listener.identity
  /-- Their factories were called, and the one of the extension itself unless there is none. No
  later one was. -/
  called : earlier.map factoryCall <+: World.factories new
  uncalled : World.factories new <+: (earlier ++ [(name, spec)]).map factoryCall
  /-- Each of the listeners was closed once, in their order. -/
  closings : World.closings new = List.range listeners.length
  /-- This came last. -/
  last : ∃ loading closing, new = loading ++ closing ∧ World.closings loading = [] ∧
    ∀ entry ∈ closing, entry.isClosing = true
  /-- None is registered any more. -/
  closed : v.roster.closed = true
  unregistered : v.roster.registered = []

/-- What the loading of extensions comes to. -/
structure AllOrNothing (specs : List (String × ExtensionSpec)) (w : World)
    (result : Except Failure Unit) (v : World) (new : List Entry) : Prop where
  journal : v.journal = w.journal ++ new
  all : result = .ok () → LoadedAll specs w v new
  /-- Loading fails if no listener comes of some enabled extension. -/
  raises : (∃ entry ∈ enabled specs, ∃ failure,
      Yields w.extensions entry.1 entry.2 (.error failure)) →
    ∃ failure, result = .error failure
  /-- The failure is the one that comes of the first such extension. -/
  nothing : ∀ failure, result = .error failure → ∃ earlier name spec listeners,
    Fails w.extensions specs earlier name spec listeners failure ∧
    Unwound earlier name spec listeners v new

section
variable {specs earlier : List (String × ExtensionSpec)} {name : String} {spec : ExtensionSpec}
  {listeners : List Listener} {calls : List (String × Members)} {u w v : World}
  (hroster : w.roster = .empty)
include hroster

theorem Loads.loadedAll (h : Loads ((enabled specs).map factoryCall) listeners w v)
    (hmakes : Makes w.extensions (enabled specs) listeners) :
    ∃ new, v.journal = w.journal ++ new ∧ LoadedAll specs w v new := by
  obtain ⟨new, hnew, hfactories, hclosings⟩ := h.journal
  have hregistered := h.registered_eq hroster
  exact ⟨new, hnew,
    { registered := hregistered.symm ▸ hmakes
      made := (h.made_eq hroster).trans hregistered.symm
      factories := hfactories
      opened := h.closed_eq hroster
      closings := hclosings }⟩

/-- What was loaded before an extension is undone by closing the listeners. -/
theorem Loads.unwound (h : Loads (earlier.map factoryCall ++ calls) listeners w u)
    (hcalls : calls <+: [(name, spec.properties)])
    (hclosing : ∀ listener ∈ listeners, listener.abortsClosing = false) :
    ∃ v new, exec cleanup u = (.ok (), v) ∧ v.journal = w.journal ++ new ∧
      Unwound earlier name spec listeners v new := by
  have hmade := h.made_eq hroster
  have hnone : ∀ id ∈ u.roster.order, u.roster.abortsAt id = false := by
    intro id hid
    have hlength := u.roster.order_lt id hid
    unfold Roster.abortsAt
    rw [List.getElem?_eq_getElem hlength]
    refine hclosing _ ?_
    rw [← hmade]
    exact List.getElem_mem hlength
  obtain ⟨v, closing, hcleanup, hjournal, hisClosing, hclosings, hclosed, hsame⟩ :=
    cleanup_of_unaborting (h.closed_eq hroster) hnone
  obtain ⟨loading, hloading, hfactories, hunclosed⟩ := h.journal
  -- listeners that are closed ask for no others, so all calls of factories come from the loading
  have hquiet : World.factories closing = [] := by
    refine List.filterMap_eq_nil_iff.mpr fun entry hentry => ?_
    have hentry := hisClosing entry hentry
    cases entry with
    | factory name properties => cases hentry
    | _ => rfl
  have hcalled : World.factories (loading ++ closing) = earlier.map factoryCall ++ calls := by
    rw [World.factories_append, hfactories, hquiet, List.append_nil]
  refine ⟨v, loading ++ closing, hcleanup, by rw [hjournal, hloading, List.append_assoc],
    { made := by rw [hsame, hmade]
      called := ?_
      uncalled := ?_
      closings := ?_
      last := ⟨loading, closing, rfl, hunclosed, hisClosing⟩
      closed := hclosed
      unregistered := by unfold Roster.registered; rw [if_pos hclosed] }⟩
  · rw [hcalled]
    exact List.prefix_append _ _
  · rw [hcalled, List.map_append]
    exact (List.prefix_append_right_inj _).mpr hcalls
  · rw [World.closings_append, hunclosed, hclosings, h.order_eq hroster]
    rfl

end

/-- The loading of extensions is all or nothing, provided that no listener that may be made aborts
when it is closed. -/
theorem loadExtensions_allOrNothing (specs : List (String × ExtensionSpec)) {w : World}
    (hroster : w.roster = .empty)
    (hclosing : ∀ entry ∈ enabled specs, ∀ listener,
      Yields w.extensions entry.1 entry.2 (.ok listener) → listener.abortsClosing = false) :
    ∃ result v new, exec (loadExtensions specs) w = (result, v) ∧
      AllOrNothing specs w result v new := by
  have hopen : w.roster.closed = false := by
    rw [hroster]
    rfl
  have hexec : exec (loadExtensions specs) w = _ := exec_closingOnFailure _ w
  obtain ⟨result, u, hu, hcourse⟩ := loading_course specs hopen
  rw [hu] at hexec
  cases hcourse with
  | @done listeners _ hmakes hloads =>
    obtain ⟨new, hnew, hall⟩ := hloads.loadedAll hroster hmakes
    refine ⟨.ok (), u, new, hexec,
      { journal := hnew, all := fun _ => hall, raises := ?_, nothing := fun _ h => (by cases h) }⟩
    rintro ⟨entry, hentry, failure, hfault⟩
    obtain ⟨listener, hmade⟩ := hmakes.ok_of_mem hentry
    cases hfault.unique hmade
  | @stopped earlier name spec listeners failure _ _ hfails hloads hcalls =>
    -- only listeners of earlier extensions are closed, and none of them aborts
    have hquiet : ∀ listener ∈ listeners, listener.abortsClosing = false := by
      intro listener hlistener
      obtain ⟨entry, hentry, hyields⟩ := hfails.makes.made_of_mem hlistener
      obtain ⟨later, hsplit⟩ := hfails.split
      refine hclosing entry ?_ listener hyields
      rw [hsplit]
      exact List.mem_append_left _ hentry
    obtain ⟨v, new, hcleanup, hnew, hunwound⟩ := hloads.unwound hroster hcalls hquiet
    simp only [hcleanup] at hexec
    refine ⟨.error failure, v, new, hexec,
      { journal := hnew
        all := fun h => (by cases h)
        raises := fun _ => ⟨failure, rfl⟩
        nothing := ?_ }⟩
    rintro _ ⟨⟩
    exact ⟨earlier, name, spec, listeners, hfails, hunwound⟩

/-- The second of three extensions aborts. The listener of the first, which fails to close, is
closed, and the third is not asked for one. -/
theorem loadExtensions_allOrNothing_aborted :
    ∃ (w : World) (specs : List (String × ExtensionSpec)), w.roster = .empty ∧
      (∀ entry ∈ enabled specs, ∀ listener,
        Yields w.extensions entry.1 entry.2 (.ok listener) → listener.abortsClosing = false) ∧
      (exec (loadExtensions specs) w).1 = .error (.plain .abort "stop") ∧
      World.calls (exec (loadExtensions specs) w).2.journal = ["close@Watcher"] ∧
      (World.factories (exec (loadExtensions specs) w).2.journal).map (·.1) =
        ["watcher", "strict"] ∧
      ∃ result v new, exec (loadExtensions specs) w = (result, v) ∧
        AllOrNothing specs w result v new := by
  let w : World :=
    { World.withListeners [] with
      extensions := [("watcher", .stranger), ("late", .listener "Late" false []),
        ("strict", .factory fun _ => .failure (.plain .abort "stop")),
        ("watcher", .listener "Watcher" false [("close", [.raise (.plain .value "no")])])] }
  let specs : List (String × ExtensionSpec) :=
    [("watcher", ⟨true, some true, []⟩), ("idle", ⟨false, none, []⟩), ("strict", ⟨true, none, []⟩),
      ("late", ⟨true, none, []⟩)]
  have hclosing : ∀ entry ∈ enabled specs, ∀ listener,
      Yields w.extensions entry.1 entry.2 (.ok listener) → listener.abortsClosing = false := by
    intro entry hentry listener hyields
    have hyields := yields_iff.mp hyields
    simp only [enabled, specs, List.filter, List.mem_cons, List.not_mem_nil, or_false] at hentry
    rcases hentry with rfl | rfl | rfl
    · cases hyields
      decide +kernel
    · cases hyields
    · cases hyields
      decide +kernel
  exact ⟨w, specs, rfl, hclosing, by decide +kernel, by decide +kernel, by decide +kernel,
    loadExtensions_allOrNothing specs rfl hclosing⟩

end ReleaseRunner.Session
