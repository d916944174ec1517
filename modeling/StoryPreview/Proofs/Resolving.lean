import StoryPreview.Loader
import StoryPreview.Proofs.Booting
import StoryPreview.Proofs.OrderedMap
import StoryPreview.Proofs.Pages
/-!
Stories that are loaded twice. A page loads a story to know its arguments, and the frame in it loads
it again to render it. Where both have the same modules they find the same export, or fail with the
same problem. What they want of the export differs: the page wants arguments that are an object, and
the frame a function that renders it.
-/
namespace StoryPreview
open Reactive
variable {M E E' W W' : Type}

def Problem.IsUnfound : Problem → Prop
  | moduleUnavailable .. | missingExport .. => True
  | _ => False

def Loader.find (path key : String) : Dialogue M E (Except Problem (M × Shape)) := do
  match ← Dialogue.request (.fetch path) with
  | .error cause => return .error (.moduleUnavailable path cause)
  | .ok module =>
    match ← Dialogue.request (.shape module key) with
    | none => return .error (.missingExport key path (← Dialogue.request (.exports module)))
    | some shape => return .ok (module, shape)

/-! ### Documents with the same modules -/

/-- As long as two documents are alike, the first answers a request in some way, and it is then
still like the second. -/
def Document.Grants (d : Document M E W) (alike : W → W' → Prop) (q : Request M E)
    (answer : q.Answer → Prop) : Prop :=
  ∀ w w', alike w w' → answer (d q w).1 ∧ alike (d q w).2 w'

/-- A frame with a configuration, in a document that does what is asked before the module is
imported, and that has the same modules as another document as long as the two are alike. -/
structure Boot.Furnished (b : Boot) (c : Config) (d : Document M E W) (d' : Document M E' W')
    (alike : W → W' → Prop) : Prop where
  mount : d.Grants alike (.present b.settings.mountId) fun answer => answer = true
  clear : d.Grants alike (.setInnerHtml b.settings.mountId "") fun answer => answer = .ok ()
  text : d.Grants alike (.text b.settings.configId) fun answer => ∃ text, answer = some text ∧
    Config.parse text = .ok c
  classes : ∀ x ∈ b.classes.changes c.theme, d.Grants alike (.setClass x.1 x.2.1 x.2.2)
    fun answer => answer = .ok ()
  fetch : ∀ path w w', alike w w' →
    (d (.fetch path) w).1 = (d' (.fetch path) w').1 ∧
    alike (d (.fetch path) w).2 (d' (.fetch path) w').2
  shape : ∀ module key w w', alike w w' →
    (d (.shape module key) w).1 = (d' (.shape module key) w').1 ∧
    alike (d (.shape module key) w).2 (d' (.shape module key) w').2
  exports : ∀ module w w', alike w w' → (d (.exports module) w).1 = (d' (.exports module) w').1

/-! ### What is made of an export -/

namespace Loader
variable {d : Document M E W} {w : W} {path key : String}

def taken (path key : String) (found : M × Shape) : Except Problem (Arguments × M) :=
  (found.2.defaultArguments.mapError (.argumentsNotObject key path)).map (·, found.1)

theorem isUnfound_of_find {e : Problem} (h : ((find path key).hold d w).outcome = .error e) :
    e.IsUnfound := by
  cases hm : (d (.fetch path) w).1 with
  | error cause =>
    simp only [find, Dialogue.hold_bind, Dialogue.hold_request, hm, Dialogue.hold_pure,
      Transcript.after_outcome] at h
    cases h
    exact trivial
  | ok module =>
    cases hx : (d (.shape module key) (d (.fetch path) w).2).1 with
    | none =>
      simp [find, hm, hx] at h
      exact h ▸ trivial
    | some shape => simp [find, hm, hx] at h

theorem error_of_taken {found : M × Shape} {e : Problem} (h : taken path key found = .error e) :
    ∃ actual, e = .argumentsNotObject key path actual := by
  rw [taken] at h
  cases hs : found.2.defaultArguments with
  | error actual =>
    rw [hs] at h
    cases h
    exact ⟨actual, rfl⟩
  | ok args =>
    rw [hs] at h
    cases h

theorem outcome_take :
    ((take path key).hold d w).outcome = ((find path key).hold d w).outcome.bind
      (taken path key) := by
  cases hm : (d (.fetch path) w).1 with
  | error cause => simp [take, find, hm, Except.bind]
  | ok module =>
    cases hx : (d (.shape module key) (d (.fetch path) w).2).1 with
    | none => simp [take, find, hm, hx, Except.bind]
    | some shape =>
      cases hs : shape.defaultArguments with
      | error actual => simp [take, find, hm, hx, hs, Except.bind, taken, Except.map]
      | ok args => simp [take, find, hm, hx, hs, Except.bind, taken, Except.map]

theorem outcome_fetch :
    ((fetch path key).hold d w).outcome = ((find path key).hold d w).outcome.bind
      (taken path key) := by
  rw [← outcome_take]
  cases h : ((take path key).hold d w).outcome with
  | error problem => simp [fetch, h]
  | ok loaded => simp [fetch, h]

/-- A program that loads a story ends as the dialogue does. -/
theorem exec_loadWith {B V : Type} (m : Meaning B V W) (g : Graph B V W) :
    ((loadWith d path key).exec m g).map Prod.fst =
      some ((fetch path key).hold d g.world).outcome := by
  have ends : (loadWith d path key).Ends m.same (perform m depthLimit) g fun r _ =>
      r = ((fetch path key).hold d g.world).outcome :=
    (Dialogue.ends_perform (fetch path key)).imp fun _ _ => And.left
  obtain ⟨r, g', run, rfl⟩ := ends
  exact Option.map_eq_some_iff.2 ⟨_, run, rfl⟩

theorem outcome_find_preview (s : Preview) : ((find path key).hold Preview.document s).outcome =
    ((s.page.module path).import? path).bind fun stories =>
      (Module.find stories path key).map fun story => (stories, story.shape) := by
  cases hm : s.page.module path with
  | fails cause => simp [find, Preview.document, Page.document, hm, Module.import?, Except.bind]
  | exports stories =>
    cases hs : stories.get? key <;>
      simp [find, Preview.document, Page.document, hm, hs, Module.import?, Module.find, Except.bind,
        Except.map]

/-- Where the import of a module comes to an end at once, a story is loaded as where it comes to an
end later. -/
theorem exec_load (m : Meaning Duty Signal Preview) (g : System) : ∃ loaded,
    ((load path key).exec m g).map Prod.fst = some loaded ∧
      loaded.map (Prod.map id Entries.keys) = resolve (g.world.page.module path) path key := by
  refine ⟨_, exec_loadWith m g, ?_⟩
  rw [outcome_fetch, outcome_find_preview, resolve]
  cases (g.world.page.module path).import? path with
  | error e => rfl
  | ok stories =>
    cases hs : Module.find stories path key with
    | error e => simp [hs, Except.bind, bind, Except.map]
    | ok story =>
      cases ha : story.shape.defaultArguments <;>
        simp [hs, ha, taken, Story.defaultArguments, Except.bind, bind, Except.map]

end Loader

namespace Boot
variable {d : Document M E W} {w : W} {path key : String}

theorem outcome_mount (s : Settings) (element : Option E) :
    ((mount s path key element).hold d w).outcome =
    (d (.mount s.mountId element) w).1.mapError (.renderFailed key path) := by
  rw [hold_mount, hold_attempt]
  cases h : (d (.mount s.mountId element) w).1 <;> simp [h]

theorem outcome_render (s : Settings) (extra : Option Arguments) (module : M) :
    ((render s path key extra module).hold d w).outcome =
      ((d (.render module key extra) w).1.mapError (.renderFailed key path)).bind fun element =>
        (d (.mount s.mountId element) (d (.render module key extra) w).2).1.mapError
          (.renderFailed key path) := by
  cases hr : (d (.render module key extra) w).1 with
  | error cause => simp [render, hr, Except.bind]
  | ok element => simp [render, hr, outcome_mount, Except.bind]

def renderFound (s : Settings) (path key : String) (extra : Option Arguments) (found : M × Shape) :
    Dialogue M E (Except Problem Unit) :=
  if found.2.renders then render s path key extra found.1
    else return .error (.notRenderable key path)

theorem error_of_renderFound {s : Settings} {extra : Option Arguments} {found : M × Shape}
    {e : Problem} (h : ((renderFound s path key extra found).hold d w).outcome = .error e) :
    e = .notRenderable key path ∨ ∃ cause, e = .renderFailed key path cause := by
  unfold renderFound at h
  split at h
  · rw [outcome_render] at h
    cases hr : (d (.render found.1 key extra) w).1 with
    | error cause =>
      rw [hr] at h
      cases h
      exact .inr ⟨cause, rfl⟩
    | ok element =>
      rw [hr, mapError_ok, Except.bind] at h
      cases hm : (d (.mount s.mountId element) (d (.render found.1 key extra) w).2).1 with
      | error cause =>
        rw [hm] at h
        cases h
        exact .inr ⟨cause, rfl⟩
      | ok u =>
        rw [hm] at h
        cases h
  · cases h
    exact .inl rfl

theorem outcome_renderTarget (s : Settings) (extra : Option Arguments) :
    ((renderTarget s path key extra).hold d w).outcome =
      ((Loader.find path key).hold d w).outcome.bind fun found =>
        ((renderFound s path key extra found).hold d
          ((Loader.find path key).hold d w).state).outcome := by
  cases hm : (d (.fetch path) w).1 with
  | error cause => simp [renderTarget, Loader.find, hm, Except.bind]
  | ok module =>
    cases hx : (d (.shape module key) (d (.fetch path) w).2).1 with
    | none => simp [renderTarget, Loader.find, hm, hx, Except.bind]
    | some shape => by_cases hs : shape.renders <;> simp [renderTarget, Loader.find, renderFound,
      hm, hx, hs, Except.bind]

end Boot

/-! ### The two side by side -/

namespace Boot.Furnished
variable {b : Boot} {c : Config} {d : Document M E W} {d' : Document M E' W'}
    {alike : W → W' → Prop} {w : W} {w' : W'}
variable {path key : String}

/-- The export that is found is the same, and then the documents are still alike. -/
theorem find (h : b.Furnished c d d' alike) (path key : String) (same : alike w w') :
    ((Loader.find path key).hold d w).outcome = ((Loader.find path key).hold d' w').outcome ∧
      ∀ found, ((Loader.find path key).hold d w).outcome = .ok found →
        alike ((Loader.find path key).hold d w).state
          ((Loader.find path key).hold d' w').state := by
  obtain ⟨fetched, same₁⟩ := h.fetch path w w' same
  cases hm : (d' (.fetch path) w').1 with
  | error cause => simp [Loader.find, fetched, hm]
  | ok module =>
    obtain ⟨shaped, same₂⟩ := h.shape module key _ _ same₁
    cases hx : (d' (.shape module key) (d' (.fetch path) w').2).1 with
    | none => simp [Loader.find, fetched, hm, shaped, hx, h.exports module _ _ same₂]
    | some shape => simpa [Loader.find, fetched, hm, shaped, hx] using same₂

theorem setAll {changes : List (Surface × String × Bool)}
    (set : ∀ x ∈ changes, d.Grants alike (.setClass x.1 x.2.1 x.2.2) fun answer => answer = .ok ())
    (same : alike w w') :
    ((ThemeClasses.setAll changes).hold d w).outcome = .ok () ∧
    alike ((ThemeClasses.setAll changes).hold d w).state w' := by
  induction changes generalizing w with
  | nil => exact ⟨rfl, same⟩
  | cons x changes ih =>
    obtain ⟨first, rest⟩ := List.forall_mem_cons.1 set
    obtain ⟨answered, same⟩ := first w w' same
    simpa [ThemeClasses.setAll, answered] using ih rest same

theorem put (h : b.Furnished c d d' alike) (same : alike w w') :
    ∃ fresh, ((b.classes.put c.theme).hold d w).outcome.1 = .ok fresh ∧
    alike ((b.classes.put c.theme).hold d w).state w' := by
  by_cases applied : b.classes.applied = some c.theme
  · exact ⟨false, by simp [ThemeClasses.put, applied],
      by simpa [ThemeClasses.put, applied] using same⟩
  · obtain ⟨set, same⟩ := setAll h.classes same
    exact ⟨true, by simp [ThemeClasses.put, applied, set],
      by simpa [ThemeClasses.put, applied, set] using same⟩

/-- A start comes to rendering what the configuration names, in a document that is still like the
other one. -/
theorem start (h : b.Furnished c d d' alike) (target : c.target = .ok (path, key))
    (same : alike w w') : ∃ v, alike v w' ∧
      (b.start.hold d w).outcome.1 =
        ((renderTarget b.settings path key (overlay b.settings c)).hold d v).outcome := by
  obtain ⟨present, same⟩ := h.mount w w' same
  obtain ⟨cleared, same⟩ := h.clear _ w' same
  obtain ⟨⟨text, configured, parsed⟩, same⟩ := h.text _ w' same
  obtain ⟨fresh, dressed, same⟩ := h.put same
  refine ⟨_, same, ?_⟩
  rw [outcome_start, if_pos present]
  rcases hp : (b.classes.put c.theme).hold d _ with ⟨⟨r, classes⟩, v, asked⟩
  rw [hp] at dressed
  obtain rfl : r = .ok fresh := dressed
  simp [fill, renderStory, renderConfigured, cleared, configured, parsed, hp, target]

end Boot.Furnished

/-! ### Previews with the same modules -/

/-- A page that refuses no call and has what the frame of a configuration starts from. -/
structure Page.Furnishes (p : Page) (s : Settings) (text : String) : Prop where
  mount : (p.elements.get? s.mountId).isSome = true
  text : p.texts.get? s.configId = some text
  allows : ∀ kind, p.allowance kind = none

theorem Page.Furnishes.note {p : Page} {s : Settings} {text : String} (h : p.Furnishes s text)
    (d : Deed) : (p.note d).Furnishes s text := ⟨h.mount, h.text, h.allows⟩

theorem Page.obey_present {p : Page} {id : String} (h : (p.elements.get? id).isSome = true)
    (c : Call) : ((p.obey c).elements.get? id).isSome = true := by
  cases c with
  | setInnerHtml written html =>
    simp only [obey, Entries.get?_insert]
    split
    · rfl
    · exact h
  | setClass surface name on => cases surface <;> exact h
  | _ => exact h

/-- A call is carried out, and leaves the modules and what a frame starts from. -/
theorem Page.Furnishes.call {p q : Page} {s : Settings} {text : String} (h : p.Furnishes s text)
    (modules : p.modules = q.modules) (c : Call) :
    (p.call c).1 = .ok () ∧ (p.call c).2.modules = q.modules ∧ (p.call c).2.Furnishes s text := by
  have setting := SameSetting.call p c
  have done := call_allowed (h.allows c.kind)
  have present : ((p.call c).2.elements.get? s.mountId).isSome = true := by
    rw [done]
    exact obey_present h.mount c
  exact ⟨congrArg Prod.fst done, setting.modules.trans modules, present, setting.texts ▸ h.text,
    fun kind => setting.allowance (h.allows kind)⟩

/-- The frame of a preview is furnished with the modules of another that has the same. -/
theorem Boot.furnished_preview {b : Boot} {c : Config} {text : String}
    (h : Config.parse text = .ok c) :
    b.Furnished c Preview.document Preview.document fun s s' : Preview =>
      s.page.modules = s'.page.modules ∧ s.page.Furnishes b.settings text where
  mount _ _ same := ⟨same.2.mount, same⟩
  clear _ _ same := same.2.call same.1 _
  text _ _ same := ⟨⟨text, same.2.text, h⟩, same⟩
  classes _ _ _ _ same := same.2.call same.1 _
  fetch path s s' same := by
    refine ⟨?_, same.1, same.2.note _⟩
    simp only [Preview.document, Page.document, Page.module, same.1]
  shape _ _ _ _ same := ⟨rfl, same⟩
  exports _ _ _ _ := rfl

/-! ### What they end with -/

/-- Where a frame is furnished with the modules that a page loads a story from, and its
configuration names the story: the load fails for want of the module or of the export exactly if the
start does, and with the same problem. If the load succeeds, or the declared arguments are no
object, the start can only fail because the export has no function that renders it, or because
rendering or mounting fails; and where there is one and both succeed, the story is rendered. -/
theorem Boot.start_fails_as_load {B B' V V' : Type} {b : Boot} {c : Config} {d : Document M E W}
    {d' : Document M E' W'} {alike : W → W' → Prop} {path key : String}
    (h : b.Furnished c d d' alike) (target : c.target = .ok (path, key)) (m : Meaning B V W)
    (m' : Meaning B' V' W') {g : Graph B V W} {g' : Graph B' V' W'}
    (same : alike g.world g'.world) : ∃ started loaded,
      ((b.runWith d).exec m g).map (fun r => r.1.1) = some started ∧
      ((Loader.loadWith d' path key).exec m' g').map Prod.fst = some loaded ∧
      (∀ e : Problem, e.IsUnfound → (loaded = .error e ↔ started = .error e)) ∧
      ((∃ x, loaded = .ok x) ∨ (∃ actual, loaded = .error (.argumentsNotObject key path actual)) →
        (∀ e, started = .error e → e = .notRenderable key path ∨
          ∃ cause, e = .renderFailed key path cause) ∧
        let t := (Loader.find path key).hold d' g'.world
        ∀ module shape, t.outcome = .ok (module, shape) → shape.renders = true →
          (∀ v, alike v t.state → ∃ element, (d (.render module key (overlay b.settings c)) v).1 =
            .ok element ∧
            (d (.mount b.settings.mountId element)
              (d (.render module key (overlay b.settings c)) v).2).1 = .ok ()) →
          started = .ok ()) := by
  obtain ⟨g₁, ran, -⟩ := b.exec_runWith d m g
  obtain ⟨v, same, start⟩ := h.start target same
  obtain ⟨found, kept⟩ := h.find path key same
  refine ⟨_, _, (congrArg (Option.map fun r => r.1.1) ran).trans
    (congrArg some (start.trans (outcome_renderTarget ..))),
    (Loader.exec_loadWith m' g').trans (congrArg some Loader.outcome_fetch), ?_⟩
  rw [← found]
  cases outcome : ((Loader.find path key).hold d v).outcome with
  | error e =>
    -- Both fail with the problem of the export.
    refine ⟨fun e' _ => by simp [Except.bind], ?_⟩
    rintro (⟨x, loaded⟩ | ⟨actual, loaded⟩)
    · cases loaded
    · cases loaded
      exact (Loader.isUnfound_of_find outcome).elim
  | ok x =>
    refine ⟨fun e unfound => ⟨fun loaded => ?_, fun started => ?_⟩,
      fun _ => ⟨fun e => error_of_renderFound, ?_⟩⟩
    · obtain ⟨actual, rfl⟩ := Loader.error_of_taken loaded
      exact unfound.elim
    · obtain rfl | ⟨cause, rfl⟩ := error_of_renderFound started
      · exact unfound.elim
      · exact unfound.elim
    · intro t module shape hx renders granted
      obtain rfl : x = (module, shape) := Except.ok.inj (outcome.symm.trans (found.trans hx))
      obtain ⟨element, rendered, mounted⟩ := granted _ (kept _ outcome)
      simp [Except.bind, renderFound, renders, outcome_render, rendered, mounted]

/-- Both miss an export that there is not. A story whose arguments are no object cannot be loaded,
but it is rendered. -/
theorem Boot.start_fails_as_load_sample :
    let modules : Entries Module :=
      [("/s.js", .exports [("Primary", ⟨some (.string "Click"), some (.gives (some "<b/>"))⟩)])]
    let text (key : String) :=
      "\x7b\"storyModulePath\":\"/s.js\",\"storyKey\":\"" ++ key ++ "\"\x7d"
    let page : System := { world := { page := { modules := modules } } }
    let frame (key : String) : System := { world := { page := {
      modules := modules, elements := [("csr-content-root", "")],
      texts := [("sandbox-config", text key)] } } }
    let started (key : String) :=
      ((ofSettings {}).run.exec App.meaning (frame key)).map fun r => r.1.1
    let loaded (key : String) := ((Loader.load "/s.js" key).exec App.meaning page).map Prod.fst
    let missing : Problem := .missingExport "Ghost" "/s.js" ["Primary"]
    (loaded "Ghost" = some (.error missing) ∧ started "Ghost" = some (.error missing)) ∧
      loaded "Primary" = some (.error (.argumentsNotObject "Primary" "/s.js" "string")) ∧
      started "Primary" = some (.ok ()) := by
  intro modules text page frame started loaded missing
  have alike (key : String) : (frame key).world.page.modules = page.world.page.modules ∧
      (frame key).world.page.Furnishes {} (text key) := ⟨rfl, rfl, rfl, fun _ => rfl⟩
  let config (key : String) : Config := { modulePath := some "/s.js", storyKey := some key }
  have parsed : Config.parse (text "Ghost") = .ok (config "Ghost") ∧
      Config.parse (text "Primary") = .ok (config "Primary") := by
    simp only [text, config]
    exact ⟨rfl, rfl⟩
  refine ⟨?_, ?_⟩
  · have lost : loaded "Ghost" = some (.error missing) := rfl
    obtain ⟨_, _, start, load, same, -⟩ :=
      start_fails_as_load (furnished_preview (b := ofSettings {}) parsed.1) rfl App.meaning
        App.meaning (alike "Ghost")
    have refused := (same missing trivial).1 (Option.some.inj (load.symm.trans lost))
    exact ⟨lost, start.trans (congrArg some refused)⟩
  · have taken :
        loaded "Primary" = some (.error (.argumentsNotObject "Primary" "/s.js" "string")) := rfl
    obtain ⟨_, _, start, load, -, only⟩ :=
      start_fails_as_load (furnished_preview (b := ofSettings {}) parsed.2) rfl App.meaning
        App.meaning (alike "Primary")
    have mounted (v : Preview) (h : v.page.Furnishes {} (text "Primary")) :=
      ((h.note (.rendered "Primary" (some (.string "Click")))).call rfl
        (.mount "csr-content-root" (some "<b/>"))).1
    have rendered :=
      (only (.inr ⟨_, Option.some.inj (load.symm.trans taken)⟩)).2 _ _ rfl rfl fun v same =>
        ⟨some "<b/>", rfl, congrArg (Except.mapError _) (mounted v same.2)⟩
    exact ⟨taken, start.trans (congrArg some rendered)⟩

end StoryPreview
