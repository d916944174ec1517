import StoryPreview.Proofs.Listening
/-!
Listeners through a cycle. Giving up what is bound takes its effects out of every audience; from
then on a cycle leaves listeners alone until it binds its story, and the two effects of that story
stand in order from the start.
-/
namespace StoryPreview
open Reactive Program

theorem Reactive.Graph.Wired.lt_of_mem_audience {B V W : Type} {mentions follows : B → List CellId}
    {out : Option EffectId} {g : Graph B V W} (h : g.Wired mentions follows out) {c : CellId}
    {e : EffectId} (he : e ∈ g.audience c) : e < g.effects.length := by
  obtain ⟨l, -, ht⟩ := List.mem_filterMap.1 he
  obtain ⟨y, hy, ht⟩ := Option.bind_eq_some_iff.1 ht
  obtain ⟨epoch, hr, -⟩ := Listener.target?_eq_some.1 ht
  exact h.target_lt hy hr

namespace App.Desk
variable {φ : Aspect → Prop} {d : Desk} {g g' : System}

structure Vacant (d : Desk) (g : System) : Prop extends d.Tidy g where
  rigged : d.Rigged g
  bindings : g.world.bindings = none
  bound : g.world.bound = none
  opened : g.world.isOpen = true

structure Ready (d : Desk) (g : System) : Prop extends d.Tidy g where
  turns : ∀ {b : Bindings} {story : BoundStory}, g.world.bindings = some b →
    g.world.bound = some story → d.InTurn g b story
  opened : g.world.isOpen = true

theorem Tidy.withCycles (h : d.Tidy g) (cycles : Entries Controller.Cycle) :
    { d with cycles := cycles }.Tidy g :=
  ⟨h.neat, h.loose, h.theme, h.scripts⟩

theorem InTurn.withCycles {b : Bindings} {story : BoundStory} (h : d.InTurn g b story)
    (cycles : Entries Controller.Cycle) : { d with cycles := cycles }.InTurn g b story :=
  ⟨h.status, h.arguments, h.theme, h.scripts, h.distinct, h.heard⟩

theorem Ready.tuned (h : d.Ready g') (t : d.Tuned g) (cycles : Entries Controller.Cycle) :
    { d with cycles := cycles }.Tuned g' where
  toTidy := h.toTidy.withCycles cycles
  turns := fun hb hs => (h.turns hb hs).withCycles cycles
  closed := fun hc => absurd (h.opened.symm.trans hc) (by simp)
  apart := t.apart
  kept := t.kept

theorem Tuned.ready (t : d.Tuned g) (ho : g.world.isOpen = true) : d.Ready g :=
  ⟨t.toTidy, t.turns, ho⟩

theorem Ready.reports (h : d.Ready g) (hr : g.Reports g') : d.Ready g' where
  toTidy := h.toTidy.congr hr.parts
  turns := by
    rw [hr.world]
    exact fun hb hs => (h.turns hb hs).congr hr.parts (by rw [hr.world])
  opened := by
    rw [hr.world]
    exact h.opened

namespace Vacant

theorem same (h : d.Vacant g) (parts : g.SameParts g') (scopes : g'.scopes = g.scopes)
    (bindings : g'.world.bindings = g.world.bindings) (bound : g'.world.bound = g.world.bound)
    (opened : g'.world.isOpen = g.world.isOpen) : d.Vacant g' :=
  ⟨h.toTidy.congr parts, h.rigged.same parts scopes, bindings.trans h.bindings, bound.trans h.bound,
    opened.trans h.opened⟩

theorem reports (h : d.Vacant g) (hr : g.Reports g') : d.Vacant g' :=
  h.same hr.parts hr.scopes (by rw [hr.world]) (by rw [hr.world]) (by rw [hr.world])

theorem ready (h : d.Vacant g) : d.Ready g where
  toTidy := h.toTidy
  turns := fun hb => by
    rw [h.bindings] at hb
    cases hb
  opened := h.opened

end Vacant

/-! Giving up what is bound. -/

theorem Tidy.dispose (h : d.Tidy g) (hr : d.Rigged g) (e : EffectId) : d.Tidy (g.dispose e) where
  neat := h.neat.dispose hr.wired e
  loose := by
    intro l
    rw [Graph.pinsOf_dispose]
    exact h.loose l
  theme := by
    rw [Graph.value_congr Graph.dispose_cells]
    exact h.theme
  scripts := by
    rw [Graph.value_congr Graph.dispose_cells]
    exact h.scripts

theorem Tidy.drop (h : d.Tidy g) (hr : d.Rigged g) (e : EffectId) : d.Tidy (g.drop e) where
  neat := h.neat.drop hr.wired e
  loose := by
    intro l
    rw [Graph.pinsOf_drop]
    exact h.loose l
  theme := by
    rw [Graph.value_congr Graph.drop_cells]
    exact h.theme
  scripts := by
    rw [Graph.value_congr Graph.drop_cells]
    exact h.scripts

theorem Tidy.unbind (h : d.Tidy g) (hr : d.Rigged g) :
    Controller.unbind.Done g fun _ g' => d.Tidy g' ∧ d.Rigged g' := by
  simp only [Controller.unbind, Action.Done, ends_bind, Action.ends_state]
  split
  · simp only [Action.ends_update]
    exact ⟨h.congr ⟨rfl, rfl, rfl⟩, hr.same ⟨rfl, rfl, rfl⟩ rfl⟩
  · rename_i b hb
    simp only [ends_bind, Action.ends_update, Action.ends_say, ends_dispose, ends_drop, ends_done]
    generalize hk : (g.withWorld { g.world with bindings := none }).record _ = k
    have tidy : d.Tidy k := by
      rw [← hk]
      exact h.congr ⟨rfl, rfl, rfl⟩
    have rigged : d.Rigged k := by
      rw [← hk]
      exact hr.same ⟨rfl, rfl, rfl⟩ rfl
    have first := rigged.dispose b.url
    have second := first.dispose b.address
    have third := second.drop b.url
    have last :=
      (((tidy.dispose rigged b.url).dispose first b.address).drop second b.url).drop third b.address
    exact ⟨last.congr ⟨rfl, rfl, rfl⟩, (third.drop b.address).same ⟨rfl, rfl, rfl⟩ rfl⟩

theorem Sound.vacate (h : d.Sound φ g) (t : d.Tidy g) (ho : g.world.isOpen = true) :
    Controller.unbind.Done g fun _ g' => d.Vacant g' := by
  refine (h.unbind.and (t.unbind h.rigged)).imp ?_
  rintro _ g' ⟨⟨rigged, free, -, world⟩, tidy, -⟩
  refine ⟨tidy, rigged, free.bindings, free.bound, ?_⟩
  rw [world]
  exact ho

/-! Binding a story. -/

section Spawn
variable {duty : Duty} {α : Type}

theorem Tidy.spawn (t : d.Tidy g) (crew : EffectId → Option (List CellId))
    (hw : App.calm.Wired none g) (hm : ∀ c ∈ duty.mentions, c < g.cells.length)
    (hfit : g.world.Fits g.cells.length) (hk : App.exact.Knows (g.addEffect duty).2 crew)
    {next : EffectId → Action α} {Q : α → System → Prop}
    (hQ : ∀ g', App.calm.Spawned duty g g' → d.Tidy g' →
      g'.heard crew = Graph.turn crew (g.heard crew) g.effects.length →
      Action.Done (next g.effects.length) g' Q) :
    Action.Done (.spawn duty next) g Q := by
  obtain ⟨g', hrun, spawned⟩ := App.calm.spawn_ends 999 hw hm hfit
  obtain ⟨neat, pins, heard⟩ := App.calm.spawn_turn App.exact 999 hw t.neat hm hfit hk hrun
  refine ends_spawn.2 ⟨g', hrun, hQ g' spawned ⟨neat, fun l => ?_, ?_, ?_⟩ heard⟩
  · rw [pins]
    exact t.loose l
  · rw [spawned.steady.value_eq]
    exact t.theme
  · rw [spawned.steady.value_eq]
    exact t.scripts

end Spawn

theorem Vacant.addCell (h : d.Vacant g) (v : Signal) : d.Vacant (g.addCell v).2 where
  neat := h.neat.congr rfl rfl
  loose := h.loose
  theme := by
    rw [(addCell_value v).2 _ h.rigged.theme]
    exact h.theme
  scripts := by
    rw [(addCell_value v).2 _ h.rigged.scripts]
    exact h.scripts
  rigged := h.rigged.of (h.rigged.wired.addCell v) rfl (by simp [Graph.addCell])
    (fun hy => ⟨_, hy, rfl⟩) (Nat.le_refl _) fun _ hr => hr
  bindings := h.bindings
  bound := h.bound
  opened := h.opened

/-- The effects of a story that is bound stand in order. -/
theorem Vacant.attend (h : d.Vacant g) {story : BoundStory} (hc : story.arguments < g.cells.length)
    (typed : ∃ args, g.value story.arguments = .arguments args)
    (theme : story.arguments ≠ d.app.theme.cell) (scripts : story.arguments ≠ d.app.toolbar.scripts)
    (origin : String) : (d.app.controller.attend story origin).Done g fun _ g' => d.Ready g' := by
  let b : Bindings := ⟨g.effects.length, g.effects.length + 1⟩
  have distinct : b.url ≠ b.address := Nat.ne_of_lt (Nat.lt_succ_self _)
  have fresh {e : EffectId} (he : e < g.effects.length) :
      b.crew d.app.theme.cell story.arguments e = none :=
    b.crew_of_ne (Nat.ne_of_lt he) (Nat.ne_of_lt (Nat.lt_succ_of_lt he))
  have unheard : g.heard (b.crew d.app.theme.cell story.arguments) = fun _ => [] := by
    funext c
    refine List.filter_eq_nil_iff.2 fun e he => ?_
    rw [fresh (h.rigged.wired.lt_of_mem_audience he)]
    simp
  have urlKnown {e : EffectId} {duty : Duty} {cs : List CellId}
      (hr : g.Runs e duty ∨ e = g.effects.length ∧ duty = .followUrl story.arguments)
      (he : b.crew d.app.theme.cell story.arguments e = some cs) : duty.binds = true ∧ ∀ c, c ∈ cs ↔
          c ∈ duty.follows := by
    rcases hr with hr | ⟨rfl, rfl⟩
    · rw [fresh hr.lt] at he
      cases he
    · obtain rfl := Option.some.inj ((b.crew_url).symm.trans he)
      exact ⟨rfl, fun c => .rfl⟩
  -- First the effect that keeps the location, and then the one that leads the frame, each behind
  -- all others.
  simp only [Controller.attend, UrlSync.bind, Action.Done, ends_bind]
  refine h.toTidy.spawn (b.crew d.app.theme.cell story.arguments) h.rigged.wired
    (fun c hm => ?_) (fun s hs => ?_)
    (fun hr he => urlKnown ((Graph.addEffect_runs _).1 hr) he) fun g₂ url tidy₂ heard₂ =>
      ends_done.2 ?_
  · rw [List.mem_singleton.1 hm]
    exact hc
  · rw [h.bound] at hs
    cases hs
  have world₂ : g₂.world = { g.world with
      page := g.world.page.withArguments (g.value story.arguments).asArguments } := url.acts
  refine tidy₂.spawn (b.crew d.app.theme.cell story.arguments) url.wired
    (fun c hm => ?_) (fun s hs => ?_)
    (fun {e duty cs} hr he => ?_) fun g₃ address tidy₃ heard₃ => ?_
  · rw [url.steady.length_eq]
    simp only [Duty.mentions, Duty.follows, h.rigged.controller, List.mem_cons, List.not_mem_nil,
      or_false] at hm
    rcases hm with rfl | rfl
    · exact h.rigged.theme
    · exact hc
  · rw [world₂] at hs
    exact absurd (h.bound.symm.trans hs) (by simp)
  · rcases (Graph.addEffect_runs _).1 hr with hr | ⟨rfl, rfl⟩
    · exact urlKnown (url.runs.1 hr) he
    · rw [url.length] at he
      obtain rfl := Option.some.inj ((b.crew_address distinct).symm.trans he)
      rw [← h.rigged.controller]
      exact ⟨rfl, fun c => .rfl⟩
  have world₃ : g₃.world = g₂.world.ledTo _ _ := address.acts
  have cell : story.arguments < g₃.cells.length := by
    rw [address.steady.length_eq, url.steady.length_eq]
    exact hc
  have opened : g₃.world.isOpen = true := by
    rw [world₃, (Preview.Follows.ledTo g₂.world _ _).isOpen, world₂]
    exact h.opened
  simp only [Controller.settle, Action.Done, ends_bind, Action.ends_update, Action.ends_look,
    Action.ends_say, ends_pure, Graph.withWorld_cells, cell, true_and]
  refine ⟨tidy₃.congr ⟨rfl, rfl, rfl⟩, fun hb hs => ?_, opened⟩
  obtain rfl := Option.some.inj hb
  obtain rfl := Option.some.inj hs
  rw [url.length] at heard₃ ⊢
  refine ⟨rfl, ?_, theme, scripts, distinct, ?_⟩
  · have value : g₃.value = g.value := address.steady.value_eq.trans url.steady.value_eq
    change ∃ args, g₃.value story.arguments = .arguments args
    rw [value]
    exact typed
  · change g₃.heard (b.crew d.app.theme.cell story.arguments) = _
    rw [heard₃, heard₂, unheard]
    exact b.turns_eq_order distinct theme

theorem Vacant.bind (h : d.Vacant g) (cycle : Controller.Cycle) (defaults : Arguments) :
    (d.app.controller.bind cycle defaults).Done g fun _ g' => d.Ready g' := by
  rw [Controller.bind_eq]
  simp only [Action.Done, ends_bind, Action.ends_state, Action.ends_sayAll, ends_create,
    Graph.recordAll_cells]
  have noted := h.reports (.recordAll g (Location.argumentsNotes g.world.page.location.search))
  have value :=
    (addCell_value (g := g.recordAll (Location.argumentsNotes g.world.page.location.search))
    (.arguments (Controller.startingWith defaults g.world.page))).1
  rw [Graph.recordAll_cells] at value
  have cell : (cycle.story defaults g.cells.length).arguments = g.cells.length := rfl
  refine (noted.addCell _).attend ?_ ?_ ?_ ?_ _ <;> rw [cell]
  · simp [Graph.addCell]
  · exact ⟨_, value⟩
  · exact Nat.ne_of_gt h.rigged.theme
  · exact Nat.ne_of_gt h.rigged.scripts

namespace Vacant

theorem fail (h : d.Vacant g) (s : Settings) (problem : Problem) :
    (Controller.fail s problem).Done g fun _ g' => d.Ready g' := by
  simp only [Controller.fail, Controller.setStatus, Action.Done, ends_bind, Action.ends_say,
    Action.ends_update, Action.ends_state]
  split
  · exact ends_pure.2 (Vacant.ready (h.same ⟨rfl, rfl, rfl⟩ rfl rfl rfl rfl))
  · rw [ends_bind, Action.ends_call]
    split
    · exact ends_pure.2 (Vacant.ready (h.same ⟨rfl, rfl, rfl⟩ rfl rfl rfl rfl))
    · rw [ends_bind, Action.ends_say, ends_pure]
      exact Vacant.ready (h.same ⟨rfl, rfl, rfl⟩ rfl rfl rfl rfl)

theorem advance (h : d.Vacant g) (cycle : Controller.Cycle) :
    (d.app.controller.advance cycle).Done g fun _ g' => d.Ready g' := by
  simp only [Controller.advance, Action.Done, ends_bind, Action.ends_state]
  split
  · exact ends_pure.2 h.ready
  rw [ends_bind, Controller.finish, ends_bind]
  refine (load_done cycle.path cycle.key).imp ?_
  rintro r g₁ ⟨-, reports⟩
  have loaded := h.reports reports
  rw [ends_bind, Action.ends_state]
  split
  · simp only [ends_bind, Action.ends_say, ends_pure]
    exact (loaded.reports (.record _ _)).ready
  · split
    · exact (loaded.fail _ _).imp fun _ g' ready => ends_pure.2 ready
    · exact (loaded.bind cycle _).imp fun _ g' ready => ends_pure.2 ready

theorem begin (h : d.Vacant g) (token : Token) (config : Config) :
    (d.app.controller.begin token config).Done g fun _ g' => d.Ready g' := by
  unfold Controller.begin
  split
  · simp only [Controller.setStatus, Action.Done, ends_bind, Action.ends_say, Action.ends_update,
      ends_pure]
    exact Vacant.ready (h.same ⟨rfl, rfl, rfl⟩ rfl rfl rfl rfl)
  · simp only [Controller.setStatus, Action.Done, ends_bind, Action.ends_say, Action.ends_update,
      ends_pure]
    exact Vacant.ready (h.same ⟨rfl, rfl, rfl⟩ rfl rfl rfl rfl)
  · exact ends_bind.2 ((h.fail _ _).imp fun _ g' ready => ends_pure.2 ready)
  · simp only [Loader.start, Action.Done, ends_bind, Action.ends_say, Action.ends_note]
    generalize hk : Graph.withWorld (g.record _) _ = k
    have loading : d.Vacant k := by
      rw [← hk]
      exact h.same ⟨rfl, rfl, rfl⟩ rfl rfl rfl rfl
    exact loading.advance _

end Vacant

/-- A new cycle gives up what is bound and goes on from there. -/
theorem Sound.run_ready (h : d.Sound φ g) (t : d.Tidy g) (ho : g.world.isOpen = true)
    (token : Token) : (d.app.controller.run token).Done g fun _ g' => d.Ready g' := by
  simp only [Controller.run, Action.Done, ends_bind, Action.ends_say]
  refine (((sound_record _).2 h).vacate (t.congr ⟨rfl, rfl, rfl⟩) ho).imp fun _ g₁ vacant => ?_
  simp only [Controller.setStatus, Action.ends_update, Action.ends_state]
  split
  · simp only [ends_bind, Action.ends_say, Action.ends_update, ends_pure]
    exact Vacant.ready (vacant.same ⟨rfl, rfl, rfl⟩ rfl rfl rfl rfl)
  · simp only [Controller.manage, ends_bind, Action.ends_state, Action.ends_sayAll,
      Action.ends_update]
    split
    · refine ends_bind.2 (Vacant.fail (vacant.same ?_ ?_ ?_ ?_ ?_) _ _ |>.imp fun _ g' ready =>
        ends_pure.2 ready)
      · exact ⟨by simp, by simp, by simp⟩
      all_goals simp
    · refine Vacant.begin (vacant.same ?_ ?_ ?_ ?_ ?_) _ _
      · exact ⟨by simp, by simp, by simp⟩
      all_goals simp

theorem Tuned.start (t : d.Tuned g) (h : d.Sound φ g) (ho : g.world.isOpen = true) :
    d.app.controller.start.Done g fun _ g' => d.Ready g' := by
  simp only [Controller.start, Action.Done, ends_bind, Action.ends_state, Action.ends_update,
    Action.ends_inSpan]
  have sound :=
    (sound_withSpan (some (.cycle g.world.generation.advance.1.issued))).2 h.invalidate.1
  exact (sound.run_ready (t.toTidy.congr ⟨rfl, rfl, rfl⟩) ho _).imp fun p g' ready =>
    ready.reports (.withSpan g' none)

theorem Tuned.opened (t : d.Tuned g) {name : String} {c : Controller.Cycle}
    (hc : d.cycles.get? name = some c) : g.world.isOpen = true := by
  by_contra ho
  rw [(t.closed (by simpa using ho)).2] at hc
  cases hc

theorem Tuned.resume (t : d.Tuned g) (h : d.Sound φ g) {name : String} {c : Controller.Cycle}
    (hc : d.cycles.get? name = some c) : (d.app.controller.resume c).Done g fun _ g' =>
      d.Ready g' := by
  have ho := t.opened hc
  cases current : g.world.generation.isCurrent c.token with
  | false => exact (resume_stale _ current).imp fun p g' post => (t.ready ho).reports post.1
  | true =>
    obtain ⟨underway, -⟩ := h.underway hc current
    have vacant : d.Vacant g :=
      ⟨t.toTidy, h.rigged, underway.free.bindings, underway.free.bound, ho⟩
    simp only [Controller.resume, Action.Done, Action.ends_inSpan]
    exact ((vacant.reports (.withSpan g (some (.cycle c.token.issued)))).advance c).imp
      fun p g' ready => ready.reports (.withSpan g' none)

theorem Tuned.dispose (t : d.Tuned g) (h : d.Sound φ g) (ho : g.world.isOpen = true) :
    Controller.dispose.Done g fun _ g' => d.Ready g' := by
  simp only [Controller.dispose, Controller.setStatus, Action.Done, ends_bind, Action.ends_update]
  exact (h.invalidate.1.vacate (t.toTidy.congr ⟨rfl, rfl, rfl⟩) ho).imp fun _ g' vacant =>
    Vacant.ready (vacant.same ⟨rfl, rfl, rfl⟩ rfl rfl rfl rfl)

/-- The listener that stores the theme is given up with the preview. -/
theorem Tuned.close (t : d.Tuned g) (h : d.Sound φ g) :
    d.app.close.Done g fun _ g' => { d with cycles := [] }.Tuned g' := by
  have tidied : d.app.close.Done g fun _ g' => d.Tidy g' := by
    simp only [App.close, Stored.close, Action.Done, ends_bind, Action.ends_update, ends_release,
      ends_done]
    have closing : d.Tidy (g.withWorld { g.world with isOpen := false }) :=
      t.toTidy.congr ⟨rfl, rfl, rfl⟩
    refine (closing.unbind
      (h.rigged.same ⟨rfl, rfl, rfl⟩ rfl)).imp ?_
    rintro _ g₁ ⟨tidy, rigged⟩
    obtain ⟨y, duty, hy, hr⟩ := rigged.writer
    refine ⟨tidy.neat.release hy hr, fun l => ?_, tidy.theme, tidy.scripts⟩
    have same : (g₁.release d.app.theme.writer).pinsOf = g₁.pinsOf :=
      Graph.pinsOf_releaseAll [d.app.theme.writer]
    rw [same]
    exact tidy.loose l
  refine (h.close.and tidied).imp ?_
  rintro _ g' ⟨⟨sound, world⟩, tidy⟩
  refine ⟨tidy.withCycles [], fun hb => ?_, fun _ => ⟨by rw [world], rfl⟩, t.apart, t.kept⟩
  rw [world] at hb
  cases hb

end App.Desk
end StoryPreview
