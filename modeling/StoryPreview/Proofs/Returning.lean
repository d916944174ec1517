import StoryPreview.Proofs.Arguments.Surviving
import StoryPreview.Proofs.Recomputing
/-!
A page that is visited again. The location carries the arguments of the story over to the next
visit: the story is bound again. If the page did not refuse to replace its location, and this can
carry the arguments, then they are the same as before exactly if their code keeps the values.
-/
namespace StoryPreview
open Reactive Program

namespace Page
variable {p q : Page} {n : Nat} {args : Arguments}

def refusals (p : Page) : Nat := p.calls.countP fun x => x.2 && decide (x.1.kind = .replaceUrl)

theorem Still.refusals (h : p.Still q) : q.refusals = p.refusals := by
    rw [Page.refusals, h.calls, Page.refusals]

theorem calls_call (p : Page) (c : Call) :
    (p.call c).2.calls = (c, !(p.allowance c.kind).admits) :: p.calls := by
  have obeyed : (p.obey c).deeds = p.deeds := by
    cases c with
    | setClass s name on => cases s <;> rfl
    | _ => rfl
  unfold Page.call
  split
  · rename_i h
    rw [calls_note, h, calls, Page.allow, obeyed]
    rfl
  · rename_i h
    rw [calls_note, Bool.not_eq_true] at *
    rw [h]
    rfl

theorem refusals_call {c : Call} (h : c.kind ≠ .replaceUrl) :
    (p.call c).2.refusals = p.refusals := by
  rw [refusals, calls_call, List.countP_cons_of_neg (by simp [h]), refusals]

theorem Still.setting (h : p.Still q) : p.SameSetting q := by
  obtain ⟨storage, deeds, rfl, -⟩ := h.exists_eq
  exact ⟨⟨rfl, rfl, rfl⟩, rfl, rfl, rfl, rfl, id⟩

/-- The location has arguments, unless the page refused to replace it more than so many times. -/
structure Holds (p : Page) (n : Nat) (args : Arguments) : Prop where
  wellFormed : p.location.WellFormed
  least : n ≤ p.refusals
  has : p.refusals = n → p.Has args

theorem Holds.congr (h : p.Holds n args) (location : q.location = p.location)
    (refusals : q.refusals = p.refusals) : q.Holds n args where
  wellFormed := location ▸ h.wellFormed
  least := refusals ▸ h.least
  has := fun hn => (h.has (refusals ▸ hn)).congr location

/-- Arguments are put into the location, unless that is refused. -/
theorem holds_withArguments (wellFormed : p.location.WellFormed) (least : n ≤ p.refusals)
    (args : Arguments) : (p.withArguments args).Holds n args := by
  unfold withArguments
  split
  · rename_i there
    exact ⟨wellFormed, least, fun _ _ => there⟩
  · have count := calls_call p (.replaceUrl (p.location.urlWith args))
    generalize hc : (p.call (.replaceUrl (p.location.urlWith args))).2 = q at count ⊢
    rcases call_cases p (.replaceUrl (p.location.urlWith args)) with ⟨he, -⟩ | ⟨he, -⟩
    · have location : q.location = .ofUrl (p.location.urlWith args) := by
        rw [← hc, he]
        rfl
      refine ⟨location ▸ Location.ofUrl_wellFormed _, ?_, fun _ clean => ?_⟩
      · rw [refusals, count, List.countP_cons]
        exact least.trans (Nat.le_add_right _ _)
      · rw [location, Location.urlWith_ofUrl_urlWith wellFormed clean, Location.url_ofUrl]
    · have location : q.location = p.location := by
        rw [← hc, he]
        rfl
      have more : q.refusals = p.refusals + 1 := by
        have noted : q.calls = (.replaceUrl (p.location.urlWith args), true) :: p.calls := by
          rw [← hc, he]
          exact calls_note p _
        rw [refusals, noted, List.countP_cons_of_pos (by simp [Call.kind]), refusals]
      exact ⟨location ▸ wellFormed, by omega, fun hn => by omega⟩

theorem Holds.ledTo (h : p.Holds n args) (f : FrameId) (a : Address) (origin : String) :
    (p.ledTo f a origin).Holds n args := by
  refine h.congr (p.ledTo_location f a origin) ?_
  unfold Page.ledTo
  split
  · rfl
  · exact refusals_call (by simp [Call.kind])

end Page

theorem Page.Holds.preview {s : Preview} {n : Nat} {args : Arguments} (h : s.page.Holds n args)
    (a : Address) (origin : String) : (s.ledTo a origin).page.Holds n args := by
  cases hm : s.session.managed with
  | none =>
    simp only [Preview.ledTo, hm]
    exact h
  | some f =>
    simp only [Preview.ledTo, hm]
    exact h.ledTo f a origin

/-! ### The story of a page -/

namespace Controller
variable {s : Settings} {p q : Page} {t : Token} {cycle cycle' : Cycle}
    {defaults defaults' : Arguments}

structure Offers (s : Settings) (p : Page) (t : Token) (cycle : Cycle) (defaults : Arguments) :
    Prop where
  plan : planned s p t = .ok cycle
  free : cycle.path ∉ p.held
  loaded : ∃ names, loaded cycle p = .ok (defaults, names)

theorem Offers.unique (h : Offers s p t cycle defaults) (h' : Offers s p t cycle' defaults') :
    cycle = cycle' ∧ defaults = defaults' := by
  obtain rfl := Except.ok.inj (h.plan.symm.trans h'.plan)
  obtain ⟨names, loaded⟩ := h.loaded
  obtain ⟨names', loaded'⟩ := h'.loaded
  rw [loaded] at loaded'
  exact ⟨rfl, (Prod.mk.inj (Except.ok.inj loaded')).1⟩

theorem planned_token (s : Settings) (p : Page) (t t' : Token) :
    planned s p t' = (planned s p t).map fun cycle => { cycle with token := t' } := by
  unfold planned
  split
  · rfl
  · split
    · rfl
    · unfold cycleOf
      split <;> rfl

theorem Offers.again (h : Offers s p t cycle defaults) (set : p.SameSetting q) (t' : Token) :
    Offers s q t' { cycle with token := t' } defaults where
  plan := by
    have same : planned s q t' = planned s p t' := by
      simp only [planned, config, set.frameIds, set.texts]
    rw [same, planned_token s p t t', h.plan]
    rfl
  free := set.held ▸ h.free
  loaded := by
    obtain ⟨names, loaded⟩ := h.loaded
    refine ⟨names, ?_⟩
    rw [← loaded]
    simp only [Controller.loaded, Page.module, set.modules]

end Controller

namespace App

def Use.IsEdit : Use → Prop
  | .edit .. | .reset => True
  | _ => False

end App

namespace App.Desk
variable {φ : Aspect → Prop} {d : Desk} {g g' : System} {story : BoundStory} {l : Loop} {n : Nat}
    {p : Page}

structure Visited (cycle : Controller.Cycle) (defaults : Arguments) (g g' : System) : Prop where
  opened : g'.world.isOpen = g.world.isOpen
  bound : g'.world.bound = some (cycle.story defaults g.cells.length)
  arguments : argumentsIn (cycle.story defaults g.cells.length) g' =
    Controller.startingWith defaults g.world.page
  setting : g.world.page.SameSetting g'.world.page
  holds : ∀ n, g.world.page.location.WellFormed → n ≤ g.world.page.refusals →
    g'.world.page.Holds n (Controller.startingWith defaults g.world.page)

/-- A start binds the story that the page has at once, and only that. -/
theorem Started.visits {x : Controller.Progress} (h : d.Started φ g x g') :
    (∃ cycle defaults, Controller.Offers d.app.controller.settings g.world.page
      g.world.generation.advance.1 cycle defaults ∧ x = .ended .bound ∧
      Visited cycle defaults g g') ∨
    x ≠ .ended .bound ∧ ∀ cycle defaults,
      ¬ Controller.Offers d.app.controller.settings g.world.page
        g.world.generation.advance.1 cycle defaults := by
  have setting := h.onward.2.setting
  cases h with
  | refused plan ho underway generation page =>
    refine .inr ⟨fun hx => ho (Controller.Progress.ended.inj hx), fun cycle defaults offers => ?_⟩
    rw [offers.plan] at plan
    cases plan
  | begun plan token underway values length world goes =>
    rename_i cycle frame k
    have page : k.world.page = g.world.page.note (.imported cycle.path) := by
      rw [world]
      rfl
    have planned {cycle' : Controller.Cycle} {defaults : Arguments} (offers : Controller.Offers
        d.app.controller.settings g.world.page g.world.generation.advance.1 cycle'
          defaults) : cycle' = cycle :=
      Except.ok.inj (offers.plan.symm.trans plan)
    cases goes with
    | held held reports =>
      rw [page] at held
      refine .inr ⟨by simp, fun cycle' defaults offers => ?_⟩
      obtain rfl := planned offers
      exact offers.free held
    | failed free loaded underway' generation page' =>
      rw [page] at loaded
      refine .inr ⟨by simp, fun cycle' defaults offers => ?_⟩
      obtain rfl := planned offers
      obtain ⟨names, there⟩ := offers.loaded
      have failed := there.symm.trans loaded
      cases failed
    | bound free loaded sound binds =>
      rename_i defaults names
      rw [page] at free loaded
      obtain ⟨b, world'⟩ := binds.world
      have value := binds.value
      have still := Page.Still.note (d := .imported cycle.path) g.world.page rfl
      rw [page, length] at world' value
      have starting : Controller.startingWith defaults (g.world.page.note (.imported cycle.path)) =
        Controller.startingWith defaults g.world.page := rfl
      rw [starting] at world' value
      generalize hs : ({ k.world with page := _ } : Preview) = s at world'
      refine .inl ⟨cycle, defaults, ⟨plan, free, names, loaded⟩, rfl, ?_, ?_, ?_, setting,
        fun n wellFormed least => ?_⟩
      · rw [world']
        refine (Preview.Follows.ledTo s _ _).isOpen.trans ?_
        rw [← hs, world]
        rfl
      · rw [world']
      · rw [argumentsIn, show (cycle.story defaults g.cells.length).arguments =
          g.cells.length from rfl, value]
        rfl
      · rw [world']
        refine Page.Holds.preview ?_ _ _
        rw [← hs]
        dsimp only
        refine Page.holds_withArguments (p := g.world.page.note (.imported cycle.path))
          wellFormed ?_ _
        rw [still.refusals]
        exact least

theorem Sound.visit (h : d.Sound φ g) (ho : g.world.isOpen = true) :
    (d.step (.use .visit)).Done g fun r g' =>
    r.2 = d ∧ d.Sound φ g' ∧
      ((∃ cycle defaults,
          Controller.Offers d.app.controller.settings g.world.page
            g.world.generation.advance.1 cycle defaults ∧ r.1 = .ended .bound ∧
            Visited cycle defaults g g') ∨
        r.1 ≠ .ended .bound ∧ ∀ cycle defaults,
          ¬ Controller.Offers d.app.controller.settings g.world.page g.world.generation.advance.1
            cycle defaults) := by
  simp only [Desk.step, Desk.use, Action.Done, ends_bind, Action.ends_state, ho, if_true]
  refine h.start.imp fun x g' started => ?_
  have visits := started.visits
  cases x with
  | pending c =>
    refine ends_pure.2 ⟨rfl, started.sound, .inr ⟨by simp, ?_⟩⟩
    obtain ⟨cycle, defaults, -, hx, -⟩ | ⟨-, none⟩ := visits
    · cases hx
    · exact none
  | ended o =>
    refine ends_pure.2 ⟨rfl, started.sound, ?_⟩
    simpa using visits

/-! ### Edits -/

/-- A loop whose location has its arguments, unless that was refused, on a page that has the same
story. -/
structure Carries (n : Nat) (p : Page) (l : Loop) : Prop where
  holds : l.page.Holds n l.arguments
  keys : ∀ k ∈ l.story.defaults.keys, k ∈ l.arguments.keys
  setting : p.SameSetting l.page

theorem Carries.lead (h : Carries n p l) : Carries n p l.lead := by
  have led : l.lead.page.Holds n l.arguments ∧ l.page.SameSetting l.lead.page := by
    cases hm : l.managed with
    | none =>
      simp only [Loop.lead, hm]
      exact ⟨h.holds, .refl _⟩
    | some f =>
      simp only [Loop.lead, hm]
      exact ⟨h.holds.ledTo f _ _, (Page.Reaches.ledTo l.page f _ _).setting⟩
  rw [l.lead_rest]
  exact ⟨led.1, h.keys, h.setting.trans led.2⟩

theorem Carries.setArguments (h : Carries n p l) {args : Arguments}
    (hk : ∀ k ∈ l.story.defaults.keys, k ∈ args.keys) : Carries n p (l.setArguments args) := by
  unfold Loop.setArguments
  split
  · exact h
  · exact Carries.lead ⟨Page.holds_withArguments h.holds.wellFormed h.holds.least args, hk,
      h.setting.trans (Page.Reaches.withArguments l.page args).setting⟩

theorem Carries.edit (h : Carries n p l) {u : Use} (hu : u.IsEdit) :
    Carries n p (l.step (.use u)) := by
  cases u with
  | edit key input =>
    rw [Loop.step]
    exact h.setArguments fun k hk => OrderedMap.mem_keys_insert.2 (.inr (h.keys k hk))
  | reset =>
    rw [Loop.step]
    exact h.setArguments fun _ => id
  | _ => exact hu.elim

/-- After edits, the preview is where the loop is, and the loop's location has its arguments. -/
theorem Mirrors.edits (m : d.Mirrors g story l) (t : d.Tuned g) (s : d.Sound₀ g) (c : Carries n p l)
    {us : List Use} (hu : ∀ u ∈ us, u.IsEdit) : (d.run (us.map .use)).Done g fun r g' =>
      r.2.app = d.app ∧ r.2.Sound₀ g' ∧ ∃ l', r.2.Mirrors g' story l' ∧ Carries n p l' := by
  induction us generalizing d g l with
  | nil => exact done_run_nil.2 ⟨rfl, s, l, m, c⟩
  | cons u us ih =>
    obtain ⟨hu, rest⟩ := List.forall_mem_cons.1 hu
    have continues : (Step.use u).Continues := by
      cases u <;> first | exact hu.elim | trivial
    refine done_run_cons.2
      (((m.step t s continues).and ((t.step s (.use u)).and (s.step (.use u)))).imp ?_)
    rintro r g₁ ⟨mirrors, tuned, sound, onward⟩
    refine (ih mirrors tuned (sound.mono fun _ => False.elim) (c.edit hu) rest).imp ?_
    rintro r' g' ⟨app, post⟩
    exact ⟨app.trans onward.app, post⟩

/-! ### The next visit -/

/-- A story that was bound is bound again, and starts with the arguments that the location has. -/
structure Returns (n : Nat) (story : BoundStory) (g : System) (story' : BoundStory) (g' : System) :
    Prop where
  bound : g'.world.bound = some story'
  same : story' = { story with arguments := story'.arguments }
  starting : argumentsIn story' g' = Controller.startingWith story.defaults g.world.page
  arguments : g.world.page.refusals = n → Codec.Carried (argumentsIn story g) →
    (Arguments.same (argumentsIn story' g') (argumentsIn story g) = true ↔
      ∀ e ∈ (argumentsIn story g).entries, Codec.ValueKept e.2)

theorem Sound.again (h : d.Sound₀ g) (c : Carries n p l) (m : d.Mirrors g story l) {t : Token}
    {cycle : Controller.Cycle} {defaults : Arguments} {cell : CellId}
    (hs : story = cycle.story defaults cell)
    (offers : Controller.Offers d.app.controller.settings p t cycle defaults) :
    (d.step (.use .visit)).Done g fun r g' => r.1 = .ended .bound ∧
    ∃ story', Returns n story g story' g' := by
  have still := m.page
  have again := offers.again (c.setting.trans still.setting) g.world.generation.advance.1
  refine (h.visit m.opened).imp ?_
  rintro r g' ⟨-, -, post⟩
  obtain ⟨cycle', defaults', offers', bound, visited⟩ | ⟨-, none⟩ := post
  · obtain ⟨rfl, rfl⟩ := again.unique offers'
    have starting := visited.arguments
    refine ⟨bound, _, visited.bound, by rw [hs]; rfl, by rw [hs]; exact starting,
      fun hn carried => ?_⟩
    have keys : ∀ k ∈ defaults.keys, k ∈ l.arguments.keys := by
      have declared := c.keys
      rw [m.same, hs] at declared
      exact declared
    rw [m.arguments] at carried ⊢
    rw [still.refusals] at hn
    rw [starting, Controller.startingWith, still.location]
    exact Location.same_of_urlWith_iff c.holds.wellFormed
      (c.holds.has hn carried.cleanKeys) carried keys
  · exact absurd again (none _ _)

/-- A visit that binds a story, edits, and another visit. -/
theorem Sound.revisit (h : d.Sound₀ g) (t : d.Tuned g) {edits : List Use}
    (he : ∀ u ∈ edits, u.IsEdit) :
    (d.step (.use .visit)).Done g fun r g₁ => r.1 = .ended .bound →
    g.world.page.location.WellFormed →
      (r.2.run (edits.map .use)).Done g₁ fun r₂ g₂ => ∃ story, g₂.world.bound = some story ∧
        (r₂.2.step (.use .visit)).Done g₂ fun r₃ g₃ =>
          r₃.1 = .ended .bound ∧ ∃ story', Returns g.world.page.refusals story g₂ story' g₃ := by
  cases ho : g.world.isOpen with
  | false =>
    simp only [Desk.step, Action.Done, ends_bind, Action.ends_state, ho]
    exact ends_pure.2 fun hr => by cases hr
  | true =>
    refine ((t.step h (.use .visit)).and (h.visit ho)).imp ?_
    rintro ⟨reply, d₁⟩ g₁ ⟨tuned, rfl, sound, visit⟩ hr wellFormed
    obtain ⟨cycle, defaults, offers, -, visited⟩ | ⟨unbound, -⟩ := visit
    · have carries : Carries g.world.page.refusals g.world.page
          (d₁.loop g₁ (cycle.story defaults g.cells.length)) := by
        refine ⟨?_, ?_, visited.setting⟩
        · have holds := visited.holds _ wellFormed (Nat.le_refl _)
          rwa [← visited.arguments] at holds
        · intro k hk
          have declared : k ∈ OrderedMap.keys defaults := hk
          have starting : k ∈ (Controller.startingWith defaults g.world.page).keys :=
            OrderedMap.mem_keys_mergedWith.2 (.inl declared)
          rwa [← visited.arguments] at starting
      have mirrors := Mirrors.of_loop sound (visited.opened.trans ho) visited.bound
      refine (mirrors.edits tuned sound carries he).imp ?_
      rintro ⟨replies, d₂⟩ g₂ ⟨app, sound₂, l, mirrors₂, carries₂⟩
      rw [← app] at offers
      exact ⟨_, mirrors₂.bound, sound₂.again carries₂ mirrors₂ rfl offers⟩
    · exact absurd hr unbound

/-- In every run in which a visit binds a story on a well-formed location and the arguments are
edited and reset after that: another visit binds the story again, and if the page did not refuse to
replace its location since the first visit, and a location can carry the arguments, then they are
the same as before exactly if their code keeps the values. -/
theorem same_of_return (s : Settings) (p : Page) (before : List Step) (edits : List Use)
    (he : ∀ u ∈ edits, u.IsEdit) :
    ∃ replies d g, App.perform (life s before) p.blank = some ((replies, d), g) ∧
      ∃ reply d₁ g₁, App.perform (d.step (.use .visit)) g = some ((reply, d₁), g₁) ∧
        (reply = .ended .bound → g.world.page.location.WellFormed →
          ∃ replies₂ d₂ g₂ story, App.perform (d₁.run (edits.map .use)) g₁ =
            some ((replies₂, d₂), g₂) ∧ g₂.world.bound = some story ∧ ∃ d₃ g₃ story',
              App.perform (d₂.step (.use .visit)) g₂ = some ((.ended .bound, d₃), g₃) ∧
              g₃.world.bound = some story' ∧ story' = { story with arguments := story'.arguments } ∧
              (g₂.world.page.refusals = g.world.page.refusals →
                Codec.Carried (argumentsIn story g₂) →
                (Arguments.same (argumentsIn story' g₃) (argumentsIn story g₂) = true ↔
                  ∀ e ∈ (argumentsIn story g₂).entries, Codec.ValueKept e.2))) := by
  obtain ⟨⟨replies, d⟩, g, run, tuned, sound⟩ := life_tuned s p before
  obtain ⟨⟨reply, d₁⟩, g₁, run₁, visit⟩ := sound.revisit tuned he
  refine ⟨replies, d, g, run, reply, d₁, g₁, run₁, fun hr wellFormed => ?_⟩
  obtain ⟨⟨replies₂, d₂⟩, g₂, run₂, story, bound, ⟨reply₃, d₃⟩, g₃, run₃, rfl, story', returns⟩ :=
    visit hr wellFormed
  exact ⟨replies₂, d₂, g₂, story, run₂, bound, d₃, g₃, story', run₃, returns.bound, returns.same,
    returns.arguments⟩

/-- A label is edited, on a page that does not know its origin; the next visit finds it in the
location. -/
theorem same_of_return_sample : ∃ replies d g d₁ g₁ replies₂ d₂ g₂ story d₃ g₃ story',
    App.perform (life {} [])
      { Page.sample Config.sample (.object [("label", .string "Click")])
        with origin := "" : Page }.blank =
      some ((replies, d), g) ∧
    App.perform (d.step (.use .visit)) g = some ((.ended .bound, d₁), g₁) ∧
    App.perform (d₁.run [.use (.edit "label" (.text "Go"))]) g₁ = some ((replies₂, d₂), g₂) ∧
    g₂.world.bound = some story ∧ App.perform (d₂.step (.use .visit)) g₂ =
      some ((.ended .bound, d₃), g₃) ∧
    g₃.world.bound = some story' ∧ (argumentsIn story g₂).entries = [("label", .text "Go")] ∧
    Arguments.same (argumentsIn story' g₃) (argumentsIn story g₂) = true := by
  obtain ⟨replies, d, g, run, reply, d₁, g₁, run₁, returns⟩ := same_of_return {}
    { Page.sample Config.sample (.object [("label", .string "Click")]) with origin := "" } []
    [.edit "label" (.text "Go")] (by simp [Use.IsEdit])
  have opened : (App.perform (life {} [])
      { Page.sample Config.sample (.object [("label", .string "Click")])
        with origin := "" : Page }.blank).map
          (fun r => (r.2.world.page.location, r.2.world.page.refusals)) =
      some (⟨"/", "", ""⟩, 0) := by
    decide +kernel
  have visited : ((App.perform (life {} [])
      { Page.sample Config.sample (.object [("label", .string "Click")])
        with origin := "" : Page }.blank).bind fun r =>
          (App.perform (r.1.2.step (.use .visit)) r.2).map fun r' =>
            r'.1.1.isBound) = some true := by
    decide +kernel
  have edited : ((App.perform (life {} [])
      { Page.sample Config.sample (.object [("label", .string "Click")])
        with origin := "" : Page }.blank).bind fun r =>
        (App.perform (r.1.2.step (.use .visit)) r.2).bind fun r' =>
          (App.perform (r'.1.2.run [.use (.edit "label" (.text "Go"))]) r'.2).map fun r'' =>
            (r''.2.world.bound.map fun story => (argumentsIn story r''.2).entries,
              r''.2.world.page.refusals)) =
      some (some [("label", .text "Go")], 0) := by
    decide +kernel
  rw [run] at opened visited edited
  simp only [Option.map_some, Option.some.injEq, Prod.mk.injEq, Option.bind_some, run₁]
    at opened visited edited
  have hr := Reply.eq_of_isBound visited
  obtain ⟨replies₂, d₂, g₂, story, run₂, bound, d₃, g₃, story', run₃, bound', -, same⟩ :=
    returns hr (by rw [opened.1]; exact ⟨by simp, .inl rfl, .inl rfl⟩)
  have run₂' :
      App.perform (d₁.run [.use (.edit "label" (.text "Go"))]) g₁ = some ((replies₂, d₂), g₂) :=
    run₂
  rw [run₂'] at edited
  simp only [Option.map_some, Option.some.injEq, Prod.mk.injEq, bound] at edited
  have carried : Codec.Carried (argumentsIn story g₂) := by
    intro e he
    rw [edited.1, List.mem_singleton] at he
    rw [he]
    refine ⟨⟨⟨?_, ?_, ?_⟩, ?_, ?_, ?_⟩, ?_, ?_, ?_⟩ <;> decide +kernel
  have kept : ∀ e ∈ (argumentsIn story g₂).entries, Codec.ValueKept e.2 := by
    intro e he
    rw [edited.1, List.mem_singleton] at he
    rw [he]
    exact ⟨by decide, by decide +kernel⟩
  exact ⟨replies, d, g, d₁, g₁, replies₂, d₂, g₂, story, d₃, g₃, story', run, hr ▸ run₁, run₂',
    bound, run₃, bound', edited.1, (same (by rw [edited.2, opened.2]) carried).2 kept⟩

/-- A null does not survive: it comes back as an empty text. -/
theorem null_lost_on_return : ∃ replies d g d₁ g₁ story d₂ g₂ story',
    App.perform (life {} []) (Page.sample Config.sample (.object [("icon", .null)])).blank =
      some ((replies, d), g) ∧
    App.perform (d.step (.use .visit)) g = some ((.ended .bound, d₁), g₁) ∧
    g₁.world.bound = some story ∧ g₁.world.page.refusals = 0 ∧
    App.perform (d₁.step (.use .visit)) g₁ = some ((.ended .bound, d₂), g₂) ∧
    g₂.world.bound = some story' ∧
    (argumentsIn story g₁).entries = [("icon", .null)] ∧
    (argumentsIn story' g₂).entries = [("icon", .text "")] ∧
    Arguments.same (argumentsIn story' g₂) (argumentsIn story g₁) = false := by
  obtain ⟨⟨replies, d⟩, g, run, tuned, sound⟩ :=
    life_tuned {} (Page.sample Config.sample (.object [("icon", .null)])) []
  have opened : (App.perform (life {} [])
      (Page.sample Config.sample (.object [("icon", .null)])).blank).map
        (fun r => r.2.world.page.location) = some ⟨"/", "", ""⟩ := by
    decide +kernel
  have visited : ((App.perform (life {} [])
      (Page.sample Config.sample (.object [("icon", .null)])).blank).bind fun r =>
        (App.perform (r.1.2.step (.use .visit)) r.2).map fun r' =>
          (r'.1.1.isBound, r'.2.world.page.location, r'.2.world.page.refusals)) =
      some (true, ⟨"/", "?args=icon:", ""⟩, 0) := by
    decide +kernel
  have shown : ((App.perform (life {} [])
      (Page.sample Config.sample (.object [("icon", .null)])).blank).bind fun r =>
        (App.perform (r.1.2.step (.use .visit)) r.2).map fun r' =>
          r'.2.world.bound.map fun story => (story.defaults, argumentsIn story r'.2)) =
      some (some (.ofEntries [("icon", .null)], .ofEntries [("icon", .null)])) := by
    decide +kernel
  obtain ⟨⟨reply, d₁⟩, g₁, run₁, visit⟩ := sound.revisit tuned (List.forall_mem_nil _)
  have run₀ :
      App.perform (life {} []) (Page.sample Config.sample (.object [("icon", .null)])).blank =
        some ((replies, d), g) := run
  have run₁' : App.perform (d.step (.use .visit)) g = some ((reply, d₁), g₁) := run₁
  rw [run₀] at opened visited shown
  simp only [Option.map_some, Option.some.injEq, Prod.mk.injEq, Option.bind_some, run₁']
    at opened visited shown
  obtain ⟨ended, location, refusals⟩ := visited
  have hr := Reply.eq_of_isBound ended
  have again := done_run_nil.1 (visit hr (by rw [opened]; exact ⟨by simp, .inl rfl, .inl rfl⟩))
  obtain ⟨story, bound, ⟨reply₂, d₂⟩, g₂, run₂, rfl, story', returns⟩ := again
  rw [bound, Option.map_some, Option.some.injEq, Prod.mk.injEq] at shown
  have starting : argumentsIn story' g₂ = .ofEntries [("icon", .text "")] := by
    rw [returns.starting, shown.1, Controller.startingWith, location]
    decide +kernel
  refine ⟨replies, d, g, d₁, g₁, story, d₂, g₂, story', run₀, hr ▸ run₁', bound, refusals, run₂,
    returns.bound, ?_⟩
  rw [starting, shown.2]
  decide +kernel

end App.Desk
end StoryPreview
