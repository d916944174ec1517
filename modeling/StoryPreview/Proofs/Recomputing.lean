import StoryPreview.Proofs.Attention
/-!
While a story is bound, the page is asked for what a loop without any subscriptions asks for that
recomputes everything after every change: it puts new arguments into the location, and then leads
the managed frame to the address.
-/
namespace StoryPreview
open Reactive Program

structure Loop where
  /-- What stands before the path of a story. -/
  start : String
  story : BoundStory
  page : Page
  managed : Option FrameId
  theme : Theme
  arguments : Arguments
  scripts : Bool
  /-- The names under which the arguments of the story are kept. -/
  names : List String

namespace Loop

def address (l : Loop) : Address :=
  .forStory l.start l.story.component (some l.story.key) l.story.mode l.theme l.arguments

def lead (l : Loop) : Loop :=
  match l.managed with
  | none => l
  | some f => { l with page := l.page.ledTo f l.address l.page.origin }

def setArguments (l : Loop) (args : Arguments) : Loop :=
  if l.arguments.same args then l
  else lead { l with arguments := args, page := l.page.withArguments args }

def setTheme (l : Loop) (t : Theme) : Loop := if l.theme = t then l else lead { l with theme := t }

def reload (l : Loop) : Loop :=
  match l.managed with
  | none => l
  | some f => { l with page := (l.page.call (.setSrc f l.address.text)).2 }

def toggleScripts (l : Loop) : Loop :=
  match l.managed with
  | none => l
  | some f =>
    let called := l.page.call (l.page.permission f !l.scripts)
    match called.1 with
    | .error _ => { l with page := called.2 }
    | .ok _ => reload { l with page := called.2, scripts := !l.scripts }

def step (l : Loop) : App.Step → Loop
  | .use u =>
    match u with
    | .edit key input => l.setArguments (l.arguments.insert key input.value)
    | .reset => l.setArguments l.story.defaults
    | .toggleTheme => l.setTheme l.theme.toggled
    | .toggleScripts => l.toggleScripts
    | .reload => l.reload
    | .unmanage => { l with managed := none }
    | .keep name => { l with names := name :: l.names }
    | _ => l
  | .page c => { l with page := l.page.change c }
  | .setTheme t => l.setTheme t
  | .setArguments name args => if name ∈ l.names then l.setArguments args else l
  | _ => l

end Loop

/-- Whether a step leaves a story bound: it starts no cycle, and disposes of nothing. -/
def App.Step.Continues : App.Step → Prop
  | .use .visit | .use (.start _) | .use .dispose | .close => False
  | _ => True

namespace Loop
variable {l : Loop} {s : Preview}

theorem lead_rest (l : Loop) : l.lead = { l with page := l.lead.page } := by
  unfold lead
  split <;> rfl

/-- A loop and a preview lead the frame alike. -/
theorem lead_still (hp : l.page.Still s.page) (hm : s.session.managed = l.managed) :
    l.lead.page.Still (s.ledTo l.address s.page.origin).page := by
  unfold lead Preview.ledTo
  rw [hm]
  cases l.managed with
  | none => exact hp
  | some f =>
    rw [hp.origin]
    exact hp.ledTo f l.address l.page.origin

end Loop

namespace App.Desk
variable {φ : Aspect → Prop} {d : Desk} {g g' : System} {story : BoundStory} {l : Loop}

def loop (d : Desk) (g : System) (story : BoundStory) : Loop where
  start := d.app.controller.settings.contentPrefix
  story := story
  page := g.world.page
  managed := g.world.session.managed
  theme := d.themeIn g
  arguments := argumentsIn story g
  scripts := (g.value d.app.toolbar.scripts).asFlag
  names := d.kept.keys.filter fun name => d.kept.get? name == some story.arguments

structure Mirrors (d : Desk) (g : System) (story : BoundStory) (l : Loop) : Prop where
  opened : g.world.isOpen = true
  bound : g.world.bound = some story
  address : g.world.address = some l.address
  start : l.start = d.app.controller.settings.contentPrefix
  same : l.story = story
  page : l.page.Still g.world.page
  managed : g.world.session.managed = l.managed
  theme : d.themeIn g = l.theme
  arguments : argumentsIn story g = l.arguments
  scripts : (g.value d.app.toolbar.scripts).asFlag = l.scripts
  names : ∀ name, d.kept.get? name = some story.arguments ↔ name ∈ l.names

namespace Mirrors

theorem of_loop (h : d.Sound φ g) (ho : g.world.isOpen = true) (hs : g.world.bound = some story) :
    d.Mirrors g story (d.loop g story) where
  opened := ho
  bound := hs
  address := by
    obtain ⟨b, bound⟩ := h.bindings_of_bound hs
    exact bound.current
  start := rfl
  same := rfl
  page := .refl _
  managed := rfl
  theme := rfl
  arguments := rfl
  scripts := rfl
  names := by
    intro name
    simp only [loop, List.mem_filter, beq_iff_eq]
    exact ⟨fun hk => ⟨List.mem_map_of_mem (Entries.mem_of_get? hk), hk⟩, And.right⟩

/-- What watchers have seen and what is reported does not matter. -/
theorem rests (h : d.Mirrors g story l) (hr : Rests g g') : d.Mirrors g' story l where
  opened := hr.world.isOpen.trans h.opened
  bound := hr.world.bound.trans h.bound
  address := hr.world.address.trans h.address
  start := h.start
  same := h.same
  page := h.page.trans hr.world.page
  managed := by rw [hr.world.session, h.managed]
  theme := by rw [themeIn, hr.value]; exact h.theme
  arguments := by rw [argumentsIn, hr.value]; exact h.arguments
  scripts := by rw [hr.value]; exact h.scripts
  names := h.names

theorem reports (h : d.Mirrors g story l) (hr : g.Reports g') : d.Mirrors g' story l :=
  h.rests ⟨hr.value_eq, by rw [hr.world]; exact .refl _⟩

theorem withWatchers (h : d.Mirrors g story l) (watchers : Entries EffectId) :
    { d with watchers := watchers }.Mirrors g story l :=
  ⟨h.opened, h.bound, h.address, h.start, h.same, h.page, h.managed, h.theme, h.arguments,
    h.scripts, h.names⟩

theorem lead {s : Preview} (h : d.Mirrors g story l) {l' : Loop} (start : l'.start = l.start)
    (same : l'.story = l.story) (names : l'.names = l.names) (scripts : l'.scripts = l.scripts)
    (rest : s = { g.world with page := s.page }) (hp : l'.page.Still s.page)
    (hm : l'.managed = l.managed) (still : (s.ledTo l'.address s.page.origin).Still g'.world)
    (theme : d.themeIn g' = l'.theme) (arguments : argumentsIn story g' = l'.arguments)
    (value : g'.value d.app.toolbar.scripts = g.value d.app.toolbar.scripts) :
    d.Mirrors g' story l'.lead := by
  have managed : s.session.managed = l'.managed := by rw [rest, hm, ← h.managed]
  have follows : s.Follows (s.ledTo l'.address s.page.origin) := .ledTo _ _ _
  rw [l'.lead_rest]
  refine ⟨?_, ?_, ?_, start.trans h.start, same.trans h.same,
    (Loop.lead_still hp managed).trans still.page, ?_, theme, arguments, ?_, ?_⟩
  · rw [still.isOpen, follows.isOpen, rest]
    exact h.opened
  · rw [still.bound, follows.bound, rest]
    exact h.bound
  · rw [still.address, Preview.ledTo_address]
    rfl
  · rw [still.session, follows.session]
    exact managed
  · rw [value]
    exact h.scripts.trans scripts.symm
  · rw [names]
    exact h.names

/-- The address of the bound story, for values that show it with the theme and the arguments of a
loop. -/
theorem address_eq (h : d.Mirrors g story l) (val : CellId → Signal) (l' : Loop)
    (start : l'.start = l.start) (same : l'.story = l.story)
    (theme : (val d.app.theme.cell).asTheme = l'.theme)
    (arguments : (val story.arguments).asArguments = l'.arguments) (origin : String) :
    (d.route story origin).address val = l'.address := by
  rw [Loop.address, start, same, h.start, h.same, ← theme, ← arguments]
  rfl

theorem setArguments (h : d.Mirrors g story l) (t : d.Tuned g) (s : d.Sound φ g) {args : Arguments}
    (answered : d.Answered g story.arguments (.arguments args) g') :
    d.Mirrors g' story (l.setArguments args) := by
  obtain ⟨b, inTurn⟩ := t.inTurn s h.bound
  obtain ⟨now, hnow⟩ := inTurn.arguments
  have current : now = l.arguments := by
    rw [← h.arguments, argumentsIn, hnow]
    rfl
  rw [Loop.setArguments, ← current]
  rcases answered with ⟨same, reports⟩ | ⟨differ, value, -, bound⟩
  · rw [hnow] at same
    rw [if_pos (show now.same args = true from same)]
    exact h.reports reports
  · rw [hnow] at differ
    have differs : ¬ now.same args = true := by
      rw [show now.same args = false from differ]
      simp
    rw [if_neg differs]
    have still := bound story h.bound
    rw [answer, if_pos rfl] at still
    have theme : (g'.value d.app.theme.cell).asTheme = l.theme := by
      rw [value, Function.update_of_ne (Ne.symm inTurn.theme)]
      exact h.theme
    have arguments : (g'.value story.arguments).asArguments = args := by
      rw [value, Function.update_self]
      rfl
    have address := h.address_eq g'.value
      { l with arguments := args, page := l.page.withArguments args } rfl rfl theme arguments
      g.world.page.origin
    rw [value] at address
    have origin : (g.world.page.withArguments args).origin = g.world.page.origin :=
      (Page.Reaches.withArguments g.world.page args).setting.origin
    rw [address, ← origin] at still
    refine h.lead (s := { g.world with page := g.world.page.withArguments args }) rfl rfl rfl
      rfl rfl (h.page.withArguments args) rfl still theme arguments ?_
    rw [value, Function.update_of_ne (Ne.symm inTurn.scripts)]

theorem setTheme (h : d.Mirrors g story l) (t : d.Tuned g) (s : d.Sound φ g) {theme : Theme}
    (answered : d.Answered g d.app.theme.cell (.theme theme) g') :
    d.Mirrors g' story (l.setTheme theme) := by
  obtain ⟨b, inTurn⟩ := t.inTurn s h.bound
  obtain ⟨now, hnow⟩ := t.toTidy.theme
  have current : now = l.theme := by
    rw [← h.theme, themeIn, hnow]
    rfl
  rw [Loop.setTheme, ← current]
  rcases answered with ⟨same, reports⟩ | ⟨differ, value, -, bound⟩
  · rw [hnow] at same
    rw [if_pos (beq_iff_eq.1 (show (now == theme) = true from same))]
    exact h.reports reports
  · rw [hnow] at differ
    rw [if_neg (beq_eq_false_iff_ne.1 (show (now == theme) = false from differ))]
    have still := bound story h.bound
    rw [answer, if_neg (Ne.symm inTurn.theme), if_pos rfl] at still
    have shown : (g'.value d.app.theme.cell).asTheme = theme := by
      rw [value, Function.update_self]
      rfl
    have arguments : (g'.value story.arguments).asArguments = l.arguments := by
      rw [value, Function.update_of_ne inTurn.theme]
      exact h.arguments
    have address :=
      h.address_eq g'.value { l with theme := theme } rfl rfl shown arguments g.world.page.origin
    rw [value] at address
    rw [address] at still
    refine h.lead (s := g.world) rfl rfl rfl rfl rfl h.page rfl still shown arguments ?_
    rw [value, Function.update_of_ne (Ne.symm t.apart)]

/-- A cell that has nothing to do with the bound story. -/
theorem other (h : d.Mirrors g story l) {c : CellId} {v : Signal} (answered : d.Answered g c v g')
    (arguments : c ≠ story.arguments) (theme : c ≠ d.app.theme.cell)
    (scripts : c ≠ d.app.toolbar.scripts) :
    d.Mirrors g' story l := by
  rcases answered with ⟨-, reports⟩ | ⟨-, value, -, bound⟩
  · exact h.reports reports
  have still := bound story h.bound
  rw [answer, if_neg arguments, if_neg theme] at still
  refine ⟨still.isOpen.trans h.opened, still.bound.trans h.bound, still.address.trans h.address,
    h.start, h.same, h.page.trans still.page, by rw [still.session, h.managed], ?_, ?_, ?_, h.names⟩
  · rw [themeIn, value, Function.update_of_ne (Ne.symm theme)]
    exact h.theme
  · rw [argumentsIn, value, Function.update_of_ne (Ne.symm arguments)]
    exact h.arguments
  · rw [value, Function.update_of_ne (Ne.symm scripts)]
    exact h.scripts

/-- Something happens to the page, or to the frame that is managed. -/
theorem aside (h : d.Mirrors g story l) {p q : Page} {session : Session FrameId} (hp : p.Still q)
    (value : g'.value = g.value)
    (world : g'.world = { g.world with page := q, session := session }) :
    d.Mirrors g' story { l with page := p, managed := session.managed } := by
  refine ⟨?_, ?_, ?_, h.start, h.same, ?_, ?_, ?_, ?_, ?_, h.names⟩
  · rw [world]
    exact h.opened
  · rw [world]
    exact h.bound
  · rw [world]
    exact h.address
  · rw [world]
    exact hp
  · rw [world]
  · rw [themeIn, value]
    exact h.theme
  · rw [argumentsIn, value]
    exact h.arguments
  · rw [value]
    exact h.scripts

theorem onPage (h : d.Mirrors g story l) {p q : Page} (hp : p.Still q) (value : g'.value = g.value)
    (world : g'.world = { g.world with page := q }) : d.Mirrors g' story { l with page := p } := by
  have aside : d.Mirrors g' story { l with page := p, managed := g.world.session.managed } :=
    h.aside hp value world
  rwa [h.managed] at aside

/-- The preview and the loop make the frame reload alike. -/
theorem reload (h : d.Mirrors g story l) (value : g'.value = g.value)
    (world : g.world.reloaded.Still g'.world) : d.Mirrors g' story l.reload := by
  have reloaded : g.world.reloaded.page = match l.managed with
      | none => g.world.page
      | some f => (g.world.page.call (.setSrc f l.address.text)).2 := by
    rw [Preview.reloaded, h.address, h.managed]
    cases l.managed <;> rfl
  have page : l.reload.page.Still g.world.reloaded.page := by
    rw [reloaded, Loop.reload]
    cases l.managed with
    | none => exact h.page
    | some f => exact (h.page.call _).2
  have rest : l.reload = { l with page := l.reload.page } := by
    unfold Loop.reload
    split <;> rfl
  rw [rest]
  -- Reloading and what watchers have seen since is one change of the page.
  refine h.onPage (page.trans world.page) value ?_
  rw [world.rest, g.world.reloaded_rest]

/-- The preview and the loop change the permission to run scripts alike. -/
theorem toggleScripts (h : d.Mirrors g story l) (t : d.Tuned g) (s : d.Sound φ g)
    (permits : d.Permits g g') : d.Mirrors g' story l.toggleScripts := by
  obtain ⟨b, inTurn⟩ := t.inTurn s h.bound
  rw [Permits, h.managed] at permits
  rw [Loop.toggleScripts]
  cases hm : l.managed with
  | none =>
    rw [hm] at permits
    exact h.reports permits
  | some f =>
    rw [hm, h.scripts] at permits
    obtain ⟨same, still⟩ := h.page.call (l.page.permission f !l.scripts)
    simp only [h.page.permission f, same] at permits
    cases hr : (l.page.call (l.page.permission f !l.scripts)).1 with
    | error problem =>
      simp only [hr] at permits ⊢
      simpa only [hm] using h.onPage still permits.1 permits.2
    | ok =>
      simp only [hr] at permits ⊢
      obtain ⟨value, world⟩ := permits
      -- The permission has its new value before the frame is made to reload.
      let k : System :=
        g'.withWorld { g.world with page := (g.world.page.call (l.page.permission f !l.scripts)).2 }
      have valuek : k.value = g'.value := Graph.value_congr rfl
      have permitted : d.Mirrors k story
          { l with page := (l.page.call (l.page.permission f !l.scripts)).2, scripts :=
              !l.scripts } := by
        refine ⟨h.opened, h.bound, h.address, h.start, h.same, still, h.managed, ?_, ?_, ?_,
          h.names⟩
        · rw [themeIn, valuek, value, Function.update_of_ne t.apart]
          exact h.theme
        · rw [argumentsIn, valuek, value, Function.update_of_ne inTurn.scripts]
          exact h.arguments
        · rw [valuek, value, Function.update_self]
          rfl
      simpa only [hm] using permitted.reload valuek.symm world

theorem keep (h : d.Mirrors g story l) (name : String) :
    { d with kept := d.kept.insert name story.arguments }.Mirrors g story
      { l with names := name :: l.names } := by
  refine ⟨h.opened, h.bound, h.address, h.start, h.same, h.page, h.managed, h.theme, h.arguments,
    h.scripts, fun other => ?_⟩
  rw [Entries.get?_insert, List.mem_cons]
  by_cases hn : name = other
  · simp [hn]
  · rw [if_neg hn, h.names]
    simp [Ne.symm hn]

/-- New arguments under a name are new arguments of the bound story, if its cell is what is kept
there. -/
theorem setKept (h : d.Mirrors g story l) (t : d.Tuned g) (s : d.Sound φ g) (name : String)
    {args : Arguments} (takes : match d.kept.get? name with
      | none => g.Reports g'
      | some c => d.Answered g c (.arguments args) g') :
    d.Mirrors g' story (if name ∈ l.names then l.setArguments args else l) := by
  simp only [← h.names]
  cases hc : d.kept.get? name with
  | none =>
    rw [hc] at takes
    rw [if_neg (by simp)]
    exact h.reports takes
  | some c =>
    rw [hc] at takes
    by_cases hn : some c = some story.arguments
    · obtain rfl := Option.some.inj hn
      rw [if_pos rfl]
      exact h.setArguments t s takes
    · obtain ⟨theme, scripts⟩ := t.kept hc
      rw [if_neg hn]
      exact h.other takes (fun he => hn (congrArg some he)) theme scripts

/-- A plain step is one of the loop. -/
theorem takes (h : d.Mirrors g story l) (t : d.Tuned g) (s : d.Sound φ g) {x : Step}
    (hx : x.IsPlain) {reply : Reply} {d' : Desk} (takes : d.Takes g x reply d' g') :
    d'.Mirrors g' story (l.step x) := by
  cases x with
  | use u =>
    simp only [Takes, h.opened, if_true] at takes
    cases u with
    | visit => exact hx.elim
    | start name => exact hx.elim
    | dispose => exact hx.elim
    | edit key input =>
      simp only [Uses, h.bound] at takes
      obtain ⟨rfl, -, answered⟩ := takes
      rw [h.arguments] at answered
      exact h.setArguments t s answered
    | reset =>
      simp only [Uses, h.bound] at takes
      obtain ⟨rfl, -, answered⟩ := takes
      rw [← h.same] at answered
      simpa only [Loop.step] using h.setArguments t s (h.same ▸ answered)
    | toggleTheme =>
      obtain ⟨rfl, answered⟩ := takes
      rw [h.theme] at answered
      exact h.setTheme t s answered
    | toggleScripts =>
      obtain ⟨rfl, permits⟩ := takes
      exact h.toggleScripts t s permits
    | reload =>
      obtain ⟨rfl, value, world⟩ := takes
      exact h.reload value (by rw [world]; exact .refl _)
    | unmanage =>
      obtain ⟨rfl, value, world⟩ := takes
      exact h.aside h.page value world
    | keep name =>
      simp only [Uses, h.bound] at takes
      obtain ⟨reports, rfl⟩ := takes
      exact (h.reports reports).keep name
    | watch name view =>
      obtain ⟨⟨watchers, rfl⟩, rests⟩ := takes
      exact (h.rests rests).withWatchers watchers
    | _ =>
      obtain ⟨rfl, reports⟩ := takes
      exact h.reports reports
  | page c =>
    obtain ⟨rfl, value, world⟩ := takes
    exact h.onPage (h.page.change c) value world
  | resume name => exact hx.elim
  | setTheme theme =>
    obtain ⟨rfl, answered⟩ := takes
    exact h.setTheme t s answered
  | setArguments name args =>
    obtain ⟨rfl, takes⟩ := takes
    exact h.setKept t s name takes
  | unwatch name =>
    obtain ⟨⟨watchers, rfl⟩, rests⟩ := takes
    exact (h.rests rests).withWatchers watchers
  | close => exact hx.elim

end Mirrors

/-- A cycle that is resumed while a story is bound is one of the past. -/
theorem Bound.resume {b : Bindings} (h : d.Sound φ g) (bound : d.Bound φ g b story) {name : String}
    {c : Controller.Cycle} (hc : d.cycles.get? name = some c) :
    g.world.generation.isCurrent c.token = false := by
  rw [Generation.isCurrent_false_iff]
  intro current
  obtain ⟨last, ordered⟩ := h.attended.cycles
  have none := ((ordered hc).2 current).2.1
  rw [bound.bindings] at none
  cases none

theorem Mirrors.withCycles (h : d.Mirrors g story l) (cycles : Entries Controller.Cycle) :
    { d with cycles := cycles }.Mirrors g story l :=
  ⟨h.opened, h.bound, h.address, h.start, h.same, h.page, h.managed, h.theme, h.arguments,
    h.scripts, h.names⟩

theorem Mirrors.step (h : d.Mirrors g story l) (t : d.Tuned g) (s : d.Sound φ g) {x : Step}
    (hx : x.Continues) : (d.step x).Done g fun r g' => r.2.Mirrors g' story (l.step x) := by
  by_cases plain : x.IsPlain
  · exact (t.plain s plain).imp fun r g' post => h.takes t s plain post.2
  cases x with
  | use u => cases u <;> first | exact hx.elim | exact absurd trivial plain
  | resume name =>
    simp only [Desk.step]
    split
    · exact ends_pure.2 h
    · rename_i c hc
      obtain ⟨b, bound⟩ := s.bindings_of_bound h.bound
      refine ends_bind.2 ((resume_stale d.app.controller (bound.resume s hc)).imp ?_)
      rintro p g' ⟨reports, -⟩
      refine ends_pure.2 ?_
      cases p <;> exact (h.reports reports).withCycles _
  | close => exact hx.elim
  | _ => exact absurd trivial plain

theorem Mirrors.run (h : d.Mirrors g story l) (t : d.Tuned g) (s : d.Sound₀ g) {steps : List Step}
    (hs : ∀ x ∈ steps, x.Continues) :
    (d.run steps).Done g fun r g' => r.2.Mirrors g' story (steps.foldl Loop.step l) := by
  induction steps generalizing d g l with
  | nil => exact done_run_nil.2 h
  | cons x steps ih =>
    refine done_run_cons.2
      (((h.step t s (hs x List.mem_cons_self)).and ((t.step s x).and (s.step x))).imp ?_)
    rintro r g₁ ⟨mirrors, tuned, sound, -⟩
    exact ih mirrors tuned (sound.mono fun _ => False.elim) fun y hy =>
      hs y (List.mem_cons_of_mem _ hy)

/-- From any state in which a story is bound, and through any steps that leave it bound, the page is
asked for exactly what the loop asks for, in the same order, and with the same refusals. -/
theorem calls_eq_loop (s : Settings) (p : Page) (before after : List Step)
    (ha : ∀ x ∈ after, x.Continues) :
    ∃ replies d g, App.perform (life s before) p.blank = some ((replies, d), g) ∧
      (g.world.isOpen = true → g.world.status = .bound → ∃ story, g.world.bound = some story ∧
        ∃ replies' d' g', App.perform (d.run after) g = some ((replies', d'), g') ∧
          g'.world.page.calls = (after.foldl Loop.step (d.loop g story)).page.calls) := by
  obtain ⟨⟨replies, d⟩, g, run, tuned, sound⟩ := life_tuned s p before
  refine ⟨replies, d, g, run, fun ho hb => ?_⟩
  obtain ⟨story, hs⟩ := Option.isSome_iff_exists.1 (((tuned.together sound).status ho).1 hb)
  obtain ⟨⟨replies', d'⟩, g', run', mirrors⟩ := (Mirrors.of_loop sound ho hs).run tuned sound ha
  exact ⟨story, hs, replies', d', g', run', mirrors.page.calls⟩

/-- An edit whose arguments the page does not take into its location, another theme, and a
reload. -/
theorem calls_eq_loop_sample : ∃ replies d g story replies' d' g',
    App.perform (life {} [.use .visit]) (Page.sample Config.sample
      (.object [("label", .string "Click")])).blank =
      some ((replies, d), g) ∧ g.world.bound = some story ∧
    App.perform (d.run [.page (.allow .replaceUrl (some 0)), .use (.edit "label" (.text "Go")),
      .setTheme .dark, .use .reload]) g = some ((replies', d'), g') ∧
    g'.world.page.calls = ([.page (.allow .replaceUrl (some 0)), .use (.edit "label" (.text "Go")),
      .setTheme .dark, .use .reload].foldl Loop.step (d.loop g story)).page.calls := by
  obtain ⟨replies, d, g, run, bound⟩ :=
    calls_eq_loop {} (Page.sample Config.sample (.object [("label", .string "Click")]))
      [.use .visit]
      [.page (.allow .replaceUrl (some 0)), .use (.edit "label" (.text "Go")), .setTheme .dark,
        .use .reload]
      (by simp [Step.Continues])
  have visited : (App.perform (life {} [.use .visit])
      (Page.sample Config.sample (.object [("label", .string "Click")])).blank).map
      (fun r => (r.2.world.isOpen, r.2.world.status)) = some (true, .bound) := by decide +kernel
  rw [run] at visited
  obtain ⟨opened, status⟩ := Prod.mk.inj (Option.some.inj visited)
  obtain ⟨story, hs, replies', d', g', run', calls⟩ := bound opened status
  exact ⟨replies, d, g, story, replies', d', g', run, hs, run', calls⟩

end App.Desk
end StoryPreview
