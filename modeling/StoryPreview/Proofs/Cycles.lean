import StoryPreview.Proofs.Acting
import StoryPreview.Proofs.Reactive.Reporting
/-!
What a cycle does to a sound desk. It gives up what is bound, and from then on nothing is bound
until it comes to an end itself, with a story that is bound or without. A cycle that is not of the
latest generation does nothing but report.
-/
namespace StoryPreview
open Reactive Program

namespace Controller

def Cycle.story (cycle : Cycle) (defaults : Arguments) (cell : CellId) : BoundStory :=
  ⟨cycle.component, cycle.key, cycle.path, cycle.mode, defaults, cell⟩

def startingWith (defaults : Arguments) (p : Page) : Arguments :=
  defaults.mergedWith (Location.argumentsOf p.location.search)

def cycleOf (s : Settings) (token : Token) (config : Config) : Except Outcome Cycle :=
  match config.componentName, config.modulePath, config.storyKey with
  | none, _, _ => .error .noStory
  | some _, none, _ => .error .noModule
  | some component, some _, none => .error (.failed (.badConfiguration
      ("Story key is missing for component '" ++ component ++ "'") "Missing storyKey in config"))
  | some component, some path, some key =>
    .ok ⟨token, component, path, key, config.renderMode.getD s.defaultRenderMode⟩

def planned (s : Settings) (p : Page) (token : Token) : Except Outcome Cycle :=
  match p.frameIds.get? s.frameId with
  | none => .error (.failed (.frameMissing s.frameId))
  | some _ =>
    match config s p with
    | .error problem => .error (.failed problem)
    | .ok config => cycleOf s token config

def loaded (cycle : Cycle) (p : Page) : Except Problem (Arguments × List String) :=
  Loader.resolve (p.module cycle.path) cycle.path cycle.key

def settle (story : BoundStory) (b : Bindings) : Action Outcome := do
  Action.update fun s => { s with bindings := some b }
  let size := (← Action.look story.arguments).asArguments.size
  Action.say .info .controller "sandbox bound"
    [("component", story.component), ("key", story.key), ("args", toString size)]
  Action.update fun s => { s with bound := some story, status := .bound }
  return .bound

def attend (c : Controller) (story : BoundStory) (origin : String) : Action Outcome := do
  let url ← UrlSync.bind story.arguments
  let route : Route :=
    ⟨c.settings.contentPrefix, story.component, story.key, story.mode, origin, c.theme,
      story.arguments⟩
  .spawn (.followAddress route) fun address => settle story ⟨url, address⟩

theorem bind_eq (c : Controller) (cycle : Cycle) (defaults : Arguments) :
    c.bind cycle defaults = (do
    let page := (← Action.state).page
    Action.sayAll (Location.argumentsNotes page.location.search)
    .create (.arguments (startingWith defaults page)) fun cell =>
      c.attend (cycle.story defaults cell) page.origin) := rfl

end Controller

namespace App.Desk
variable {φ ψ : Aspect → Prop} {d : Desk} {g g' : System}

/-- A cycle is under way: nothing is bound, and every cycle that is kept is older. -/
structure Underway (φ : Aspect → Prop) (d : Desk) (g : System) : Prop where
  rigged : d.Rigged g
  free : Free g
  distinct : d.cycles.keys.Nodup
  older : ∀ {name : String} {c : Controller.Cycle}, d.cycles.get? name = some c →
    c.token.issued < g.world.generation.current
  location : φ .location → g.world.page.Located
  frames : φ .frames → g.world.page.Framed ∧
    ∀ f, g.world.session.managed = some f → f < g.world.page.frames.length
  status : g.world.isOpen = true → g.world.status ≠ .bound

namespace Underway

theorem sound (h : d.Underway φ g) : d.Sound φ g where
  rigged := h.rigged
  attended :=
    { distinct := h.distinct
      cycles := ⟨"", fun hc => ⟨Nat.le_of_lt (h.older hc),
        fun he => absurd he (Nat.ne_of_lt (h.older hc))⟩⟩
      location := h.location
      frames := h.frames
      status := fun ho hs => absurd hs (h.status ho) }
  standing := .inl h.free

theorem update (h : d.Underway φ g) (parts : g.SameParts g') (scopes : g'.scopes = g.scopes)
    (bindings : g'.world.bindings = none) (bound : g'.world.bound = none)
    (address : g'.world.address = none) (generation : g'.world.generation = g.world.generation)
    (page : g.world.page.Reaches g'.world.page)
    (managed : φ .frames → ∀ f, g'.world.session.managed = some f → f < g.world.page.frames.length)
    (status : g'.world.isOpen = true → g'.world.status ≠ .bound) : d.Underway φ g' where
  rigged := h.rigged.same parts scopes
  free := h.free.transfer (parts.kin scopes) (by rw [bindings, h.free.bindings])
    (by rw [bound, h.free.bound]) (by rw [address, h.free.address])
  distinct := h.distinct
  older := by
    rw [generation]
    exact h.older
  location := fun hl => (h.location hl).reaches page
  frames := by
    intro hl
    rw [page.setting.frames]
    exact ⟨(h.frames hl).1.reaches page, managed hl⟩
  status := status

theorem reports (h : d.Underway φ g) (hr : g.Reports g') : d.Underway φ g' := by
  refine h.update hr.parts hr.scopes ?_ ?_ ?_ ?_ ?_ ?_ ?_ <;> rw [hr.world]
  · exact h.free.bindings
  · exact h.free.bound
  · exact h.free.address
  · exact .refl
  · exact fun hl => (h.frames hl).2
  · exact h.status

/-- The page does something, and the status becomes another than bound. -/
theorem act (h : d.Underway φ g) (status : Status) {p : Page} (hp : g.world.page.Reaches p)
    (hs : g.world.isOpen = true → status ≠ .bound) :
    d.Underway φ (g.withWorld { g.world with page := p, status := status }) :=
  h.update ⟨rfl, rfl, rfl⟩ rfl h.free.bindings h.free.bound h.free.address rfl hp
    (fun hl => (h.frames hl).2) hs

end Underway

structure Binds (d : Desk) (cycle : Controller.Cycle) (defaults : Arguments) (g g' : System) :
    Prop where
  value : g'.value g.cells.length = .arguments (Controller.startingWith defaults g.world.page)
  old : ∀ c < g.cells.length, g'.value c = g.value c
  world : ∃ b, g'.world =
    { ({ g.world with
          page := g.world.page.withArguments (Controller.startingWith defaults g.world.page) } :
            Preview).ledTo
        ((d.route (cycle.story defaults g.cells.length) g.world.page.origin).address g'.value)
        g.world.page.origin with
      bindings := some b, bound := some (cycle.story defaults g.cells.length), status := .bound }

theorem Rigged.dispose (h : d.Rigged g) (e : EffectId) : d.Rigged (g.dispose e) :=
  h.of (h.wired.dispose e) Graph.dispose_scopes (by simp)
    (Graph.Steady.dispose g e).reaction (by simp) fun _ hr => (Graph.dispose_runs.1 hr).2

theorem Rigged.drop (h : d.Rigged g) (e : EffectId) : d.Rigged (g.drop e) :=
  h.of (h.wired.drop e) Graph.drop_scopes (by simp) (Graph.Steady.drop g e).reaction (by simp)
    fun _ hr => (Graph.drop_runs.1 hr).2

theorem Sound.unbind (h : d.Sound φ g) : Controller.unbind.Done g fun _ g' =>
    d.Rigged g' ∧ Free g' ∧ g'.cells = g.cells ∧
      g'.world = { g.world with bindings := none, bound := none, address := none } := by
  simp only [Controller.unbind, Action.Done, ends_bind, Action.ends_state]
  rcases h.standing with free | ⟨b, story, bound⟩
  · simp only [free.bindings, Action.ends_update]
    exact ⟨h.rigged.same ⟨rfl, rfl, rfl⟩ rfl, ⟨rfl, rfl, rfl, free.live⟩, rfl, rfl⟩
  · simp only [bound.bindings, ends_bind, Action.ends_update, Action.ends_say, ends_dispose,
      ends_drop, ends_done]
    generalize hk : (g.withWorld { g.world with bindings := none }).record _ = k
    have rigged : d.Rigged k := by
      rw [← hk]
      exact h.rigged.same ⟨rfl, rfl, rfl⟩ rfl
    have world : k.world = { g.world with bindings := none } := by
      rw [← hk]
      rfl
    have cells : k.cells = g.cells := by
      rw [← hk]
      rfl
    have runs {e : EffectId} {duty : Duty} (hr : k.Runs e duty) : g.Runs e duty := by
      rw [← hk] at hr
      exact hr
    have released := (((rigged.dispose b.url).dispose b.address).drop b.url).drop b.address
    refine ⟨released.same ⟨rfl, rfl, rfl⟩ rfl, ⟨?_, rfl, rfl, fun {e duty} hr => ?_⟩, ?_, ?_⟩
    · simp [world]
    · obtain ⟨ha, hr⟩ := Graph.drop_runs.1 (hr : Graph.Runs (Graph.drop _ b.address) e duty)
      obtain ⟨hu, hr⟩ := Graph.drop_runs.1 hr
      have hr := (Graph.dispose_runs.1 (Graph.dispose_runs.1 hr).2).2
      rcases bound.live (runs hr) with hw | rfl | rfl
      · exact hw
      · exact absurd rfl hu
      · exact absurd rfl ha
    · simp [cells]
    · simp [world]

theorem spawn_done {α : Type} {duty : Duty} {next : EffectId → Action α} {Q : α → System → Prop}
    (hw : App.calm.Wired none g) (hm : ∀ c ∈ duty.mentions, c < g.cells.length)
    (hfit : g.world.Fits g.cells.length)
    (hQ : ∀ g', App.calm.Spawned duty g g' → Action.Done (next g.effects.length) g' Q) :
    Action.Done (.spawn duty next) g Q := by
  obtain ⟨g', hrun, spawned⟩ := App.calm.spawn_ends 999 hw hm hfit
  exact ends_spawn.2 ⟨g', hrun, hQ g' spawned⟩

theorem Underway.addCell (h : d.Underway φ g) (v : Signal) : d.Underway φ (g.addCell v).2 where
  rigged := h.rigged.of (h.rigged.wired.addCell v) rfl (by simp [Graph.addCell])
    (fun hy => ⟨_, hy, rfl⟩) (Nat.le_refl _) fun _ hr => hr
  free := ⟨h.free.bindings, h.free.bound, h.free.address, h.free.live⟩
  distinct := h.distinct
  older := h.older
  location := h.location
  frames := h.frames
  status := h.status

theorem addCell_value (v : Signal) : (g.addCell v).2.value g.cells.length = v ∧
    ∀ c < g.cells.length, (g.addCell v).2.value c = g.value c := by
  refine ⟨by simp [Graph.value, Graph.addCell], fun c hc => ?_⟩
  simp [Graph.value, Graph.addCell, List.getElem?_append_left hc]

structure Binding (d : Desk) (story : BoundStory) (args : Arguments) (g : System) (b : Bindings)
    (g' : System) : Prop where
  rigged : d.Rigged g'
  cells : g'.cells.length = g.cells.length
  value : g'.value = g.value
  url : g'.Runs b.url (.followUrl story.arguments)
  address : g'.Runs b.address (.followAddress (d.route story g.world.page.origin))
  live : ∀ {e : EffectId} {duty : Duty}, g'.Runs e duty → duty.IsWatch ∨ e = b.url ∨ e = b.address
  world : g'.world = ({ g.world with page := g.world.page.withArguments args } : Preview).ledTo
    ((d.route story g.world.page.origin).address g.value) g.world.page.origin

theorem Underway.spawn_both (h : d.Underway φ g) {story : BoundStory} {α : Type}
    {Q : α → System → Prop} (next : EffectId → EffectId → Action α)
    (hc : story.arguments < g.cells.length)
    (hQ : ∀ b g', d.Binding story (g.value story.arguments).asArguments g b g' →
      Action.Done (next b.url b.address) g' Q) :
    Action.Done (.spawn (.followUrl story.arguments) .done) g fun url g₁ =>
      Action.Done (.spawn (.followAddress (d.route story g.world.page.origin)) (next url)) g₁
        Q := by
  refine spawn_done h.rigged.wired (fun c hm => ?_) h.sound.fits fun g₂ url => ends_done.2 ?_
  · rw [List.mem_singleton.1 hm]
    exact hc
  obtain ⟨wired₂, steady₂, runs₂, length₂, scopes₂, acts₂⟩ := url
  have world₂ : g₂.world = { g.world with
      page := g.world.page.withArguments (g.value story.arguments).asArguments } := acts₂
  refine spawn_done wired₂ (fun c hm => ?_) (fun s hs => ?_) fun g₃ address => ?_
  · rw [steady₂.length_eq]
    simp only [Duty.mentions, Duty.follows, route, List.mem_cons, List.not_mem_nil, or_false] at hm
    rcases hm with rfl | rfl
    · exact h.rigged.theme
    · exact hc
  · rw [world₂] at hs
    rw [h.free.bound] at hs
    cases hs
  obtain ⟨wired₃, steady₃, runs₃, length₃, scopes₃, acts₃⟩ := address
  have world₃ : g₃.world = g₂.world.ledTo _ _ := acts₃
  refine hQ ⟨g.effects.length, g₂.effects.length⟩ g₃
    ⟨?_, (by rw [steady₃.length_eq, steady₂.length_eq]), ?_, ?_, ?_, ?_, ?_⟩
  · refine h.rigged.of wired₃ (scopes₃.trans scopes₂) (by rw [steady₃.length_eq, steady₂.length_eq])
      (steady₂.trans steady₃).reaction (by rw [length₃, length₂]; exact Nat.le_add_right _ 2)
      fun {e duty} hlt hr => ?_
    rcases runs₃.1 hr with hr | ⟨rfl, -⟩
    · rcases runs₂.1 hr with hr | ⟨rfl, -⟩
      · exact hr
      · exact absurd hlt (Nat.lt_irrefl _)
    · rw [length₂] at hlt
      exact absurd hlt (Nat.not_lt.2 (Nat.le_succ _))
  · rw [steady₃.value_eq, steady₂.value_eq]
  · exact runs₃.2 (.inl (runs₂.2 (.inr ⟨rfl, rfl⟩)))
  · exact runs₃.2 (.inr ⟨rfl, rfl⟩)
  · intro e duty hr
    rcases runs₃.1 hr with hr | ⟨rfl, -⟩
    · rcases runs₂.1 hr with hr | ⟨rfl, -⟩
      · exact .inl (h.free.live hr)
      · exact .inr (.inl rfl)
    · exact .inr (.inr rfl)
  · rw [world₃, world₂, steady₂.value_eq]
    rfl

def bindingWorld (s : Preview) (b : Bindings) (story : BoundStory) : Preview :=
  { s with bindings := some b, bound := some story, status := .bound }

theorem Binding.follows {story : BoundStory} {args : Arguments} {b : Bindings}
    (hb : d.Binding story args g b g') : g.world.Follows g'.world := by
  rw [hb.world]
  exact (Preview.Follows.withArguments g.world args).trans (.ledTo _ _ _)

theorem Binding.sound {story : BoundStory} {b : Bindings} {g'' : System}
    (hb : d.Binding story (g.value story.arguments).asArguments g b g') (h : d.Underway φ g)
    (hm : φ .session → ∃ f, g.world.session.managed = some f) (parts : g'.SameParts g'')
    (scopes : g''.scopes = g'.scopes) (world : g''.world = bindingWorld g'.world b story) :
    d.Sound φ g'' := by
  have attended := h.sound.attended
  have follows := hb.follows
  have at_address := (attended.follows (.withArguments g.world _)).atAddress
    ((d.route story g.world.page.origin).address g.value)
    (Page.Reaches.withArguments g.world.page
      (g.value story.arguments).asArguments).setting.origin.symm
  rw [← hb.world] at at_address
  have kin := parts.kin scopes
  have value : g''.value = g.value := (Graph.value_congr parts.cells).trans hb.value
  have page : g''.world.page = g'.world.page := by
    rw [world]
    rfl
  have session : g''.world.session = g.world.session := by
    rw [world]
    exact follows.session
  have generation : g''.world.generation = g.world.generation := by
    rw [world]
    exact follows.generation
  have origin : g''.world.page.origin = g.world.page.origin := by
    rw [page]
    exact follows.page.setting.origin
  have bindings : g''.world.bindings = some b := by
    rw [world]
    rfl
  refine ⟨hb.rigged.same parts scopes, ⟨h.distinct, ⟨"", fun hc => ?_⟩, fun hl => ?_,
    fun hl => ?_, ?_⟩, .inr ⟨b, story, bindings, by rw [world]; rfl, kin.runs_iff.2 hb.url, ?_,
      fun hr => hb.live (kin.runs_iff.1 hr), ?_, fun hl => ?_, fun hl f hf => ?_, ?_⟩⟩
  · rw [generation]
    exact ⟨Nat.le_of_lt (h.older hc), fun he => absurd he (Nat.ne_of_lt (h.older hc))⟩
  · rw [page]
    exact (h.location hl).reaches follows.page
  · rw [page, session, follows.page.setting.frames]
    exact ⟨(h.frames hl).1.reaches follows.page, (h.frames hl).2⟩
  · rw [bindings]
    simp
  · rw [origin]
    exact kin.runs_iff.2 hb.address
  · rw [origin, value, world]
    exact at_address.current
  · rw [value, page, hb.world]
    exact ((attended.location hl).withArguments _).congr Preview.ledTo_location
  · rw [session] at hf
    rw [origin, value, page]
    exact at_address.framed hl f (follows.session ▸ hf)
  · rw [session]
    exact hm

theorem Underway.attend (h : d.Underway φ g)
    (hm : φ .session → ∃ f, g.world.session.managed = some f) (story : BoundStory)
    (hc : story.arguments < g.cells.length) {origin : String} (ho : origin = g.world.page.origin) :
    (d.app.controller.attend story origin).Done g fun o g' =>
      o = .bound ∧ d.Sound φ g' ∧ g'.value = g.value ∧ ∃ b, g'.world = bindingWorld
        (({ g.world with
          page := g.world.page.withArguments (g.value story.arguments).asArguments } :
          Preview).ledTo ((d.route story origin).address g.value) origin) b story := by
  subst ho
  have route : (⟨d.app.controller.settings.contentPrefix, story.component, story.key, story.mode,
      g.world.page.origin, d.app.controller.theme, story.arguments⟩ : Route) =
      d.route story g.world.page.origin := by
    rw [h.rigged.controller]
    rfl
  simp only [Controller.attend, UrlSync.bind, Action.Done, ends_bind, route]
  refine h.spawn_both (fun url address => Controller.settle story ⟨url, address⟩) hc fun b g' hb =>
    ?_
  have cell : story.arguments < g'.cells.length := by rwa [hb.cells]
  simp only [Controller.settle, Action.Done, ends_bind, Action.ends_update, Action.ends_look,
    Action.ends_say, ends_pure, Graph.withWorld_cells, cell, true_and]
  refine ⟨hb.sound h hm ⟨rfl, rfl, rfl⟩ rfl rfl, hb.value, b, ?_⟩
  simp only [Graph.withWorld_world, Graph.record_world, hb.world]
  rfl

theorem Underway.bind (h : d.Underway φ g) (hm : φ .session → ∃ f, g.world.session.managed = some f)
    (cycle : Controller.Cycle) (defaults : Arguments) :
    (d.app.controller.bind cycle defaults).Done g fun o g' =>
      o = .bound ∧ d.Sound φ g' ∧ d.Binds cycle defaults g g' := by
  have h₀ := h.reports (.recordAll g (Location.argumentsNotes g.world.page.location.search))
  have h₁ := h₀.addCell (.arguments (Controller.startingWith defaults g.world.page))
  obtain ⟨new, old⟩ :=
    addCell_value (g := g.recordAll (Location.argumentsNotes g.world.page.location.search))
    (.arguments (Controller.startingWith defaults g.world.page))
  rw [Graph.recordAll_cells] at new old
  rw [Controller.bind_eq]
  simp only [Action.Done, ends_bind, Action.ends_state, Action.ends_sayAll, ends_create,
    Graph.recordAll_cells]
  have world₁ : ((g.recordAll (Location.argumentsNotes g.world.page.location.search)).addCell
      (.arguments (Controller.startingWith defaults g.world.page))).2.world = g.world :=
        Graph.recordAll_world _ _
  have there : (cycle.story defaults g.cells.length).arguments <
      ((g.recordAll (Location.argumentsNotes g.world.page.location.search)).addCell
        (.arguments (Controller.startingWith defaults g.world.page))).2.cells.length := by
    simp [Controller.Cycle.story, Graph.addCell]
  refine (h₁.attend (by rwa [world₁]) (cycle.story defaults g.cells.length) there
    (by rw [world₁])).imp ?_
  rintro o g' ⟨ho, sound, value, b, world⟩
  refine ⟨ho, sound, ?_, fun c hc => ?_, b, ?_⟩
  · rw [value, new]
  · rw [value, old c hc]
    exact congrFun (Graph.value_congr (Graph.recordAll_cells _ _)) c
  · have args : (((g.recordAll (Location.argumentsNotes g.world.page.location.search)).addCell
        (.arguments (Controller.startingWith defaults g.world.page))).2.value
          (cycle.story defaults g.cells.length).arguments).asArguments =
        Controller.startingWith defaults g.world.page := congrArg Signal.asArguments new
    rw [args, ← value, world₁] at world
    exact world

theorem Binds.of_reports {cycle : Controller.Cycle} {defaults : Arguments} {g₀ : System}
    (h : d.Binds cycle defaults g₀ g') (hr : g.Reports g₀) : d.Binds cycle defaults g g' := by
  have cells : g₀.cells.length = g.cells.length := by rw [hr.parts.cells]
  obtain ⟨value, old, world⟩ := h
  rw [cells] at value old world
  rw [hr.world] at value world
  refine ⟨value, fun c hc => (old c hc).trans ?_, world⟩
  rw [hr.value_eq]

theorem load_done (path key : String) :
    (Loader.finish path key).Done g fun r g' =>
      r = Loader.resolve (g.world.page.module path) path key ∧ g.Reports g' := by
  simp only [Loader.finish, Action.Done, ends_bind, Action.ends_state, Action.ends_sayAll]
  have noted := Graph.Reports.recordAll g (Loader.resolveNotes (g.world.page.module path) path key)
  split
  · rename_i args names heq
    simp only [ends_bind, Action.ends_say, ends_pure]
    exact ⟨heq.symm, noted.trans (.record _ _)⟩
  · rename_i problem heq
    simp only [ends_bind, Action.ends_say, ends_pure]
    exact ⟨heq.symm, noted.trans (.record _ _)⟩

theorem Underway.fail (h : d.Underway φ g) (s : Settings) (problem : Problem) :
    (Controller.fail s problem).Done g fun o g' =>
      o = .failed problem ∧ d.Underway φ g' ∧ g'.world.generation = g.world.generation ∧
        g.world.page.Reaches g'.world.page := by
  have failed (e : Event Signal) : d.Underway φ
      ((g.record e).withWorld { g.world with status := .failed }) :=
    (h.reports (.record g e)).act .failed .refl (by simp)
  simp only [Controller.fail, Controller.setStatus, Action.Done, ends_bind, Action.ends_say,
    Action.ends_update, Action.ends_state]
  split
  · exact ends_pure.2 ⟨rfl, failed _, rfl, .refl⟩
  · rename_i frame _
    rw [ends_bind, Action.ends_call]
    have shown := (failed (.noted ⟨.error, .controller, "sandbox initialization failed",
      [("error", problem.message)]⟩)).act Status.failed
        (.call .refl (.setSrcdoc frame (Panel.document problem.message s.errorStylesheet)))
          (by simp)
    split
    · exact ends_pure.2 ⟨rfl, shown, rfl, .call .refl _⟩
    · rw [ends_bind, Action.ends_say, ends_pure]
      exact ⟨rfl, shown.reports (.record _ _), rfl, .call .refl _⟩

/-- A cycle that has been overtaken only reports, whatever its module gives. -/
theorem finish_stale (c : Controller) {cycle : Controller.Cycle}
    (h : g.world.generation.isCurrent cycle.token = false) :
    (c.finish cycle).Done g fun o g' => o = .stale ∧ g.Reports g' := by
  simp only [Controller.finish, Action.Done, ends_bind, Action.ends_state]
  refine (load_done cycle.path cycle.key).imp ?_
  rintro r g₁ ⟨_, reports⟩
  rw [reports.world, h]
  simp only [Bool.not_false, if_true, ends_bind, Action.ends_say, ends_pure]
  exact ⟨trivial, reports.trans (.record _ _)⟩

theorem advance_stale (c : Controller) {cycle : Controller.Cycle}
    (h : g.world.generation.isCurrent cycle.token = false) :
    (c.advance cycle).Done g fun p g' => g.Reports g' ∧
      p = if cycle.path ∈ g.world.page.held then .pending cycle else .ended .stale := by
  simp only [Controller.advance, Action.Done, ends_bind, Action.ends_state]
  split
  · exact ends_pure.2 ⟨.refl g, rfl⟩
  · rw [ends_bind]
    refine (finish_stale c h).imp ?_
    rintro o g' ⟨ho, reports⟩
    rw [ends_pure, ho]
    exact ⟨reports, rfl⟩

/-- How a cycle goes on that is under way: it waits, or it comes to an end with a problem, or it
binds the story that its module has. -/
inductive Goes (φ : Aspect → Prop) (d : Desk) (cycle : Controller.Cycle) (g : System) :
    Controller.Progress → System → Prop
  | held {g' : System} (h : cycle.path ∈ g.world.page.held) (reports : g.Reports g') :
    Goes φ d cycle g (.pending cycle) g'
  | failed {problem : Problem} {g' : System} (h : cycle.path ∉ g.world.page.held)
    (loaded : Controller.loaded cycle g.world.page = .error problem) (underway : d.Underway φ g')
    (generation : g'.world.generation = g.world.generation)
      (page : g.world.page.Reaches g'.world.page) :
    Goes φ d cycle g (.ended (.failed problem)) g'
  | bound {defaults : Arguments} {names : List String} {g' : System}
    (h : cycle.path ∉ g.world.page.held)
    (loaded : Controller.loaded cycle g.world.page = .ok (defaults, names)) (sound : d.Sound φ g')
    (binds : d.Binds cycle defaults g g') : Goes φ d cycle g (.ended .bound) g'

/-- What is reported before and afterwards does not matter. -/
theorem Goes.around {cycle : Controller.Cycle} {p : Controller.Progress} {k k' : System}
    (h : d.Goes φ cycle k p k') (before : g.Reports k) (after : k'.Reports g') :
    d.Goes φ cycle g p g' := by
  cases h with
  | held h reports =>
    rw [before.world] at h
    exact .held h ((before.trans reports).trans after)
  | failed h loaded underway generation page =>
    rw [before.world] at h loaded generation page
    exact .failed h loaded (underway.reports after) (by rw [after.world, generation])
      (by rwa [after.world])
  | bound h loaded sound binds =>
    rw [before.world] at h loaded
    obtain ⟨value, old, world⟩ := binds.of_reports before
    exact .bound h loaded ((sound_congr after.parts after.scopes after.world).2 sound)
      ⟨by rw [after.value_eq]; exact value, by rw [after.value_eq]; exact old, by
        rw [after.world, after.value_eq]; exact world⟩

theorem Underway.advance (h : d.Underway φ g)
    (hm : φ .session → ∃ f, g.world.session.managed = some f) {cycle : Controller.Cycle}
    (hc : g.world.generation.isCurrent cycle.token = true) :
    (d.app.controller.advance cycle).Done g (d.Goes φ cycle g) := by
  simp only [Controller.advance, Action.Done, ends_bind, Action.ends_state]
  split
  · rename_i held
    exact ends_pure.2 (.held held (.refl g))
  rename_i free
  simp only [Controller.finish, ends_bind, Action.ends_state]
  refine (load_done cycle.path cycle.key).imp fun r g₁ post => ?_
  obtain ⟨rfl, reports⟩ := post
  have underway := h.reports reports
  rw [reports.world, hc]
  simp only [Bool.not_true, Bool.false_eq_true, if_false]
  cases loaded : Controller.loaded cycle g.world.page with
  | error problem =>
    rw [Controller.loaded] at loaded
    simp only [loaded]
    refine (underway.fail d.app.controller.settings problem).imp ?_
    rintro o g' ⟨ho, underway', generation, page⟩
    rw [ends_pure, ho]
    rw [reports.world] at generation page
    exact .failed free loaded underway' generation page
  | ok story =>
    obtain ⟨defaults, names⟩ := story
    rw [Controller.loaded] at loaded
    simp only [loaded]
    refine (underway.bind (by rwa [reports.world]) cycle defaults).imp ?_
    rintro o g' ⟨ho, sound, binds⟩
    rw [ends_pure, ho]
    exact .bound free loaded sound (binds.of_reports reports)

theorem Binds.follows {cycle : Controller.Cycle} {defaults : Arguments}
    (h : d.Binds cycle defaults g g') :
    g'.world.generation = g.world.generation ∧ g.world.page.Reaches g'.world.page := by
  obtain ⟨b, world⟩ := h.world
  have follows :=
    (Preview.Follows.withArguments g.world (Controller.startingWith defaults g.world.page)).trans
    (.ledTo _ ((d.route (cycle.story defaults g.cells.length) g.world.page.origin).address g'.value)
      g.world.page.origin)
  rw [world]
  exact ⟨follows.generation, follows.page⟩

theorem Goes.onward {cycle : Controller.Cycle} {p : Controller.Progress}
    (h : d.Goes φ cycle g p g') :
    g'.world.generation = g.world.generation ∧ g.world.page.Reaches g'.world.page := by
  cases h with
  | held h reports =>
    rw [reports.world]
    exact ⟨rfl, .refl⟩
  | failed h loaded underway generation page => exact ⟨generation, page⟩
  | bound h loaded sound binds => exact binds.follows

end App.Desk
end StoryPreview
