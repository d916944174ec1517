import StoryPreview.Proofs.Consistency
import StoryPreview.Proofs.Hearing
/-!
What each plain step does, exactly: what it gives, which cells it changes, and what it asks of the
page. Whatever watchers have seen and what was stored is left open.
-/
namespace StoryPreview
open Reactive Program

def Preview.reloaded (s : Preview) : Preview :=
  match s.address, s.session.managed with
  | some a, some f => { s with page := (s.page.call (.setSrc f a.text)).2 }
  | _, _ => s

theorem Preview.reloaded_rest (s : Preview) : s.reloaded = { s with page := s.reloaded.page } := by
  unfold Preview.reloaded
  split <;> rfl

theorem Preview.Still.reloaded {s s' : Preview} (h : s.Still s') :
    s.reloaded.Still s'.reloaded := by
  unfold Preview.reloaded
  rw [h.address, h.session]
  split
  · refine ⟨?_, (h.page.call _).2⟩
    rw [h.rest]
  · exact h

def Page.permission (p : Page) (frame : FrameId) (on : Bool) : Call :=
  .setAttribute frame Toolbar.attributeName (" ".intercalate (Toolbar.permit on (Toolbar.wordsOf
    (((p.frame? frame).bind fun f => f.attributes.get? Toolbar.attributeName).getD ""))))

theorem Page.Still.permission {p q : Page} (h : p.Still q) (frame : FrameId) (on : Bool) :
    q.permission frame on = p.permission frame on := by
  rw [Page.permission, Page.permission, h.frame?]

theorem Controller.reload_done {g : System} : Controller.reload.Done g fun _ g' =>
    g.SameParts g' ∧ g'.world = g.world.reloaded := by
  simp only [Controller.reload, Action.Done, ends_bind, Action.ends_state]
  split
  · rename_i ha
    simp only [ends_bind, Action.ends_say, ends_pure]
    exact ⟨⟨rfl, rfl, rfl⟩, by simp [Preview.reloaded, ha]⟩
  · rename_i ha hm
    simp only [ends_bind, Action.ends_say, ends_pure]
    exact ⟨⟨rfl, rfl, rfl⟩, by simp [Preview.reloaded, ha, hm]⟩
  · rename_i a f ha hm
    simp only [ends_bind, Action.ends_call]
    split
    · exact ends_pure.2 ⟨⟨rfl, rfl, rfl⟩, by simp [Preview.reloaded, ha, hm]⟩
    · simp only [ends_bind, Action.ends_say, ends_pure]
      exact ⟨⟨rfl, rfl, rfl⟩, by simp [Preview.reloaded, ha, hm]⟩

namespace App.Desk
variable {φ : Aspect → Prop} {d : Desk} {g g' : System} {c : CellId} {v : Signal}

/-! Writes that suit their cells. -/

theorem Sound.bindings_of_bound (h : d.Sound φ g) {story : BoundStory}
    (hs : g.world.bound = some story) : ∃ b, d.Bound φ g b story := by
  rcases h.standing with free | ⟨b, story', bound⟩
  · rw [free.bound] at hs
    cases hs
  · obtain rfl := Option.some.inj (bound.bound.symm.trans hs)
    exact ⟨b, bound⟩

theorem Tuned.inTurn (t : d.Tuned g) (h : d.Sound φ g) {story : BoundStory}
    (hs : g.world.bound = some story) : ∃ b, d.InTurn g b story := by
  obtain ⟨b, bound⟩ := h.bindings_of_bound hs
  exact ⟨b, t.turns bound.bindings hs⟩

theorem Tuned.suits_theme (t : d.Tuned g) (h : d.Sound φ g) (theme : Theme) :
    d.Suits g d.app.theme.cell (.theme theme) where
  theme := fun _ => ⟨theme, rfl⟩
  scripts := fun hc => absurd hc t.apart
  arguments := by
    intro story hs hc
    obtain ⟨b, inTurn⟩ := t.inTurn h hs
    exact absurd hc.symm inTurn.theme

theorem Tuned.suits_scripts (t : d.Tuned g) (h : d.Sound φ g) (on : Bool) :
    d.Suits g d.app.toolbar.scripts (.flag on) where
  theme := fun hc => absurd hc.symm t.apart
  scripts := fun _ => ⟨on, rfl⟩
  arguments := by
    intro story hs hc
    obtain ⟨b, inTurn⟩ := t.inTurn h hs
    exact absurd hc.symm inTurn.scripts

theorem suits_arguments (theme : c ≠ d.app.theme.cell) (scripts : c ≠ d.app.toolbar.scripts)
    (args : Arguments) : d.Suits g c (.arguments args) :=
  ⟨fun hc => absurd hc theme, fun hc => absurd hc scripts, fun _ _ => ⟨args, rfl⟩⟩

/-! What is reported around a write does not matter. -/

theorem Answered.after {k : System} (h : d.Answered k c v g') (hr : g.Reports k) :
    d.Answered g c v g' := by
  have answer (story : BoundStory) : d.answer k story c v = d.answer g story c v := by
    rw [Desk.answer, Desk.answer, hr.world, hr.value_eq]
  rcases h with ⟨same, reports⟩ | ⟨differ, value, free, bound⟩
  · refine .inl ⟨?_, hr.trans reports⟩
    rwa [hr.value_eq] at same
  · refine .inr ⟨?_, ?_, ?_, ?_⟩
    · rwa [hr.value_eq] at differ
    · rwa [hr.value_eq] at value
    · rwa [hr.world] at free
    · rw [hr.world] at bound
      intro story hs
      rw [← answer]
      exact bound story hs

theorem Answered.before {k : System} (h : d.Answered g c v k) (hr : k.Reports g') :
    d.Answered g c v g' := by
  rcases h with ⟨same, reports⟩ | ⟨differ, value, free, bound⟩
  · exact .inl ⟨same, reports.trans hr⟩
  · refine .inr ⟨differ, hr.value_eq.trans value, ?_, ?_⟩ <;> rw [hr.world] <;> assumption

/-! Watchers. -/

structure Rests (g g' : System) : Prop where
  value : g'.value = g.value
  world : g.world.Still g'.world

theorem Rests.trans {g'' : System} (h : Rests g g') (h' : Rests g' g'') : Rests g g'' :=
  ⟨h'.value.trans h.value, h.world.trans h'.world⟩

/-- A new watcher stands beside the effects of the bound story. -/
theorem Tuned.watch (t : d.Tuned g) (h : d.Sound φ g) (name : String) (view : View) :
    (d.app.watch name view).Done g fun _ g' => d.Tuned g' ∧ Rests g g' := by
  have mentions : ∀ c ∈ (Duty.watch name view d.app.toolbar.theme d.app.toolbar.scripts).mentions,
      c < g.cells.length := by
    intro c hc
    simp only [Duty.mentions, h.rigged.toolbar, List.mem_cons, List.not_mem_nil, or_false] at hc
    rcases hc with rfl | rfl
    · exact h.rigged.theme
    · exact h.rigged.scripts
  have watching : (Duty.watch name view d.app.toolbar.theme d.app.toolbar.scripts).IsWatch :=
    trivial
  have rests {g' : System} (hs : App.calm.Spawned
      (Duty.watch name view d.app.toolbar.theme d.app.toolbar.scripts) g g') :
      Rests g g' := ⟨hs.steady.value_eq, @Duty.IsWatch.still _ g.value _ _ watching hs.acts⟩
  rcases h.standing with free | ⟨b, story, bound⟩
  · refine t.toTidy.spawn (fun _ => none) h.rigged.wired mentions h.fits (fun _ hc => by cases hc)
      fun g' spawned tidy _ => ends_done.2 ⟨⟨tidy, fun hb => ?_, ?_, t.apart, t.kept⟩,
        rests spawned⟩
    · rw [(rests spawned).world.bindings, free.bindings] at hb
      cases hb
    · rw [(rests spawned).world.bindings, (rests spawned).world.isOpen]
      exact t.closed
  · have inTurn := t.turns bound.bindings bound.bound
    have fresh : b.crew d.app.theme.cell story.arguments g.effects.length = none :=
      b.crew_of_ne (Nat.ne_of_gt bound.url.lt) (Nat.ne_of_gt bound.address.lt)
    refine t.toTidy.spawn (b.crew d.app.theme.cell story.arguments) h.rigged.wired mentions h.fits
      (fun {e duty cs} hr hc => ?_)
      fun g' spawned tidy heard => ends_done.2 ⟨⟨tidy, fun hb hs => ?_, ?_, t.apart, t.kept⟩,
        rests spawned⟩
    · rcases (Graph.addEffect_runs _).1 hr with hr | ⟨rfl, rfl⟩
      · exact bound.knows hr hc
      · rw [fresh] at hc
        cases hc
    · rw [(rests spawned).world.bindings, bound.bindings] at hb
      rw [(rests spawned).world.bound, bound.bound] at hs
      obtain rfl := Option.some.inj hb
      obtain rfl := Option.some.inj hs
      refine ⟨(rests spawned).world.status.trans inTurn.status, ?_, inTurn.theme, inTurn.scripts,
        inTurn.distinct, ?_⟩
      · rw [(rests spawned).value]
        exact inTurn.arguments
      · rw [heard, Graph.turn_of_none fresh, inTurn.heard]
    · rw [(rests spawned).world.bindings, (rests spawned).world.isOpen]
      exact t.closed

theorem Tuned.drop (t : d.Tuned g) (h : d.Sound φ g) {e : EffectId}
    (he : ∀ duty, g.Runs e duty → duty.IsWatch) : d.Tuned (g.drop e) := by
  have world : (g.drop e).world = g.world := Graph.drop_world
  refine ⟨t.toTidy.drop h.rigged e, fun {b story} hb hs => ?_, ?_, t.apart, t.kept⟩
  · rw [world] at hb hs
    have inTurn := t.turns hb hs
    obtain ⟨b', bound⟩ := h.bindings_of_bound hs
    obtain rfl := Option.some.inj (bound.bindings.symm.trans hb)
    refine ⟨by rw [world]; exact inTurn.status, ?_, inTurn.theme, inTurn.scripts,
      inTurn.distinct, ?_⟩
    · rw [Graph.value_congr Graph.drop_cells]
      exact inTurn.arguments
    · funext c
      have other : ∀ e' ∈ b'.order d.app.theme.cell story.arguments c, e' ≠ e := by
        rintro e' he' rfl
        rcases b'.eq_of_mem_order he' with rfl | rfl
        · exact he _ bound.url
        · exact he _ bound.address
      rw [Graph.heard, Graph.audience_drop h.rigged.wired t.neat, List.filter_filter]
      simp only [Bool.and_comm]
      rw [← List.filter_filter]
      change (g.heard (b'.crew d.app.theme.cell story.arguments) c).filter (· ≠ e) = _
      rw [inTurn.heard]
      exact List.filter_eq_self.2 fun e' he' => by simpa using other e' he'
  · rw [world]
    exact t.closed

theorem Rests.drop (e : EffectId) : Rests g (g.drop e) := by
  refine ⟨Graph.value_congr Graph.drop_cells, ?_⟩
  rw [Graph.drop_world]
  exact .refl _

/-! The toolbar. -/

/-- The permission of the managed frame to run scripts has been changed, unless the page refused it,
and then the frame has been made to reload. -/
def Permits (d : Desk) (g g' : System) : Prop :=
  match g.world.session.managed with
  | none => g.Reports g'
  | some frame =>
    let on := !(g.value d.app.toolbar.scripts).asFlag
    let called := g.world.page.call (g.world.page.permission frame on)
    match called.1 with
    | .error _ => g'.value = g.value ∧ g'.world = { g.world with page := called.2 }
    | .ok _ => g'.value = Function.update g.value d.app.toolbar.scripts (.flag on) ∧
        ({ g.world with page := called.2 } : Preview).reloaded.Still g'.world

/-- No effect of the bound story follows the permission to run scripts. -/
theorem Answered.scripts {on : Bool} (h : d.Answered g d.app.toolbar.scripts (.flag on) g')
    (s : d.Sound φ g) (t : d.Tuned g)
    (new : Signal.same (g.value d.app.toolbar.scripts) (.flag on) = false) :
    g'.value = Function.update g.value d.app.toolbar.scripts (.flag on) ∧
    g.world.Still g'.world := by
  rcases h with ⟨same, -⟩ | ⟨-, value, free, bound⟩
  · exact absurd (same.symm.trans new) (by simp)
  refine ⟨value, ?_⟩
  cases hs : g.world.bound with
  | none => exact free hs
  | some story =>
    obtain ⟨b, inTurn⟩ := t.inTurn s hs
    have still := bound story hs
    rwa [answer, if_neg (Ne.symm inTurn.scripts), if_neg (Ne.symm t.apart)] at still

theorem Tuned.reloaded (t : d.Tuned g) (parts : g.SameParts g')
    (world : g'.world = g.world.reloaded) : d.Tuned g' := by
  have rest := g.world.reloaded_rest
  rw [← world] at rest
  exact t.congr parts (by rw [rest]) (by rw [rest]) (by rw [rest]) (by rw [rest])

theorem Tuned.toggleScripts (t : d.Tuned g) (h : d.Sound φ g) :
    d.app.toggleScripts.Done g fun _ g' => d.Tuned g' ∧ d.Permits g g' := by
  obtain ⟨was, hwas⟩ := t.toTidy.scripts
  have new : Signal.same (g.value d.app.toolbar.scripts)
      (.flag !(g.value d.app.toolbar.scripts).asFlag) = false := by
    rw [hwas]
    cases was <;> rfl
  simp only [App.toggleScripts, Toolbar.toggleScripts, Action.Done, ends_bind, Action.ends_state,
    Permits]
  cases hm : g.world.session.managed with
  | none =>
    simp only [ends_bind, Action.ends_say, ends_pure]
    exact ⟨t.reports (.record g _), .record g _⟩
  | some frame =>
    simp only [ends_bind, Action.ends_look, h.rigged.scripts, true_and, Action.ends_call]
    have call : Call.setAttribute frame Toolbar.attributeName (" ".intercalate (Toolbar.permit
        (!(g.value d.app.toolbar.scripts).asFlag)
          (Toolbar.wordsOf (((g.world.page.frame? frame).bind fun f =>
          f.attributes.get? Toolbar.attributeName).getD "")))) =
        g.world.page.permission frame !(g.value d.app.toolbar.scripts).asFlag := rfl
    rw [call]
    have called :=
      h.call (c := g.world.page.permission frame !(g.value d.app.toolbar.scripts).asFlag)
      (by simp [Page.permission, Call.kind]) (by simp [Page.permission, Call.kind])
    have tuned :=
      t.onPage (g.world.page.call (g.world.page.permission frame
        !(g.value d.app.toolbar.scripts).asFlag)).2
    cases hr :
      (g.world.page.call (g.world.page.permission frame !(g.value d.app.toolbar.scripts).asFlag)).1
      with
    | error problem => exact ends_pure.2 ⟨tuned, rfl, rfl⟩
    | ok =>
      simp only [ends_bind, Action.ends_say]
      refine (tuned.put called called.rigged.scripts (tuned.suits_scripts called _)).imp ?_
      rintro _ g₁ ⟨sound, -, tuned₁, answered⟩
      obtain ⟨value, still⟩ := answered.scripts called tuned new
      refine Controller.reload_done.imp ?_
      rintro r g₂ ⟨parts, world⟩
      have done : d.Tuned g₂ ∧ g₂.value = Function.update g.value d.app.toolbar.scripts
          (.flag !(g.value d.app.toolbar.scripts).asFlag) ∧ (Preview.reloaded { g.world with
            page := (g.world.page.call (g.world.page.permission frame
              !(g.value d.app.toolbar.scripts).asFlag)).2 }).Still
            g₂.world := by
        refine ⟨tuned₁.reloaded ⟨parts.cells, parts.listeners, parts.effects⟩ world, ?_, ?_⟩
        · rw [Graph.value_congr parts.cells]
          exact value
        · rw [world]
          exact still.reloaded
      split
      · exact ends_pure.2 done
      · exact ends_pure.2 done

/-! Every plain step. -/

def Uses (d : Desk) (g : System) (u : Use) (r : Reply) (d' : Desk) (g' : System) : Prop :=
  match u with
  | .edit key input => d' = d ∧ match g.world.bound with
    | none => r = .flag false ∧ g.Reports g'
    | some story => r = .flag true ∧
        d.Answered g story.arguments (.arguments ((argumentsIn story g).insert key input.value)) g'
  | .reset => d' = d ∧ match g.world.bound with
    | none => r = .flag false ∧ g.Reports g'
    | some story => r = .flag true ∧ d.Answered g story.arguments (.arguments story.defaults) g'
  | .toggleTheme => d' = d ∧ d.Answered g d.app.theme.cell (.theme (d.themeIn g).toggled) g'
  | .toggleScripts => d' = d ∧ d.Permits g g'
  | .reload => d' = d ∧ g'.value = g.value ∧ g'.world = g.world.reloaded
  | .unmanage => d' = d ∧ g'.value = g.value ∧ g'.world = { g.world
    with session := g.world.session.manage none }
  | .keep name => g.Reports g' ∧ d' = match g.world.bound with
    | none => d
    | some story => { d with kept := d.kept.insert name story.arguments }
  | .watch _ _ => (∃ watchers, d' = { d with watchers := watchers }) ∧ Rests g g'
  | .controls | .labels | .settings | .bound => d' = d ∧ g.Reports g'
  | .visit | .start _ | .dispose => True

def Takes (d : Desk) (g : System) (s : Step) (r : Reply) (d' : Desk) (g' : System) : Prop :=
  match s with
  | .use u => if g.world.isOpen then d.Uses g u r d' g' else d' = d ∧ g.Reports g'
  | .page c => d' = d ∧ g'.value = g.value ∧ g'.world = { g.world
    with page := g.world.page.change c }
  | .setTheme t => d' = d ∧ d.Answered g d.app.theme.cell (.theme t) g'
  | .setArguments name args => d' = d ∧ match d.kept.get? name with
    | none => g.Reports g'
    | some c => d.Answered g c (.arguments args) g'
  | .unwatch _ => (∃ watchers, d' = { d with watchers := watchers }) ∧ Rests g g'
  | .resume _ | .close => True

theorem Tuned.keeping (t : d.Tuned g) {kept : Entries CellId} {watchers : Entries EffectId}
    (hk : ∀ {name : String} {c : CellId}, kept.get? name = some c →
      c ≠ d.app.theme.cell ∧ c ≠ d.app.toolbar.scripts) :
    { d with kept := kept, watchers := watchers }.Tuned g where
  neat := t.neat
  loose := t.loose
  theme := t.theme
  scripts := t.scripts
  turns := fun hb hs => by
    obtain ⟨status, arguments, theme, scripts, distinct, heard⟩ := t.turns hb hs
    exact ⟨status, arguments, theme, scripts, distinct, heard⟩
  closed := t.closed
  apart := t.apart
  kept := hk

theorem Tuned.usePlain (t : d.Tuned g) (h : d.Sound φ g) {u : Use} (hu : (Step.use u).IsPlain) :
    (d.use u).Done g fun r g' => r.2.Tuned g' ∧ d.Uses g u r.1 r.2 g' := by
  have fits := h.fits
  by_cases looks : Use.Looks u
  · refine (h.looks looks).imp ?_
    rintro r g' ⟨hr, rfl⟩
    rw [hr]
    refine ⟨t, ?_⟩
    cases u <;> first | exact ⟨rfl, .refl _⟩ | exact looks.elim
  cases u with
  | visit => exact hu.elim
  | start name => exact hu.elim
  | dispose => exact hu.elim
  | edit key input =>
    simp only [use, editBound, Action.Done, ends_bind, Action.ends_state, Uses]
    cases hs : g.world.bound with
    | none =>
      simp only [ends_bind, Action.ends_say, ends_pure]
      exact ⟨t.reports (.record g _), trivial, trivial, .record g _⟩
    | some story =>
      obtain ⟨b, inTurn⟩ := t.inTurn h hs
      simp only [App.edit, ends_bind, Action.ends_say, Action.ends_look, Graph.record_cells,
        fits story hs, true_and]
      refine ((t.reports (.record g _)).put ((sound_record _).2 h) (fits story hs)
        (suits_arguments inTurn.theme inTurn.scripts _)).imp ?_
      rintro _ g' ⟨-, -, tuned, answered⟩
      exact ends_pure.2 (ends_pure.2 ⟨tuned, rfl, rfl, answered.after (.record g _)⟩)
  | reset =>
    simp only [use, resetBound, Action.Done, ends_bind, Action.ends_state, Uses]
    cases hs : g.world.bound with
    | none =>
      simp only [ends_bind, Action.ends_say, ends_pure]
      exact ⟨t.reports (.record g _), trivial, trivial, .record g _⟩
    | some story =>
      obtain ⟨b, inTurn⟩ := t.inTurn h hs
      simp only [Toolbar.resetArguments, ends_bind, Action.ends_say]
      refine (t.put h (fits story hs) (suits_arguments inTurn.theme inTurn.scripts _)).imp ?_
      rintro _ g' ⟨-, -, tuned, answered⟩
      exact ends_pure.2 (ends_pure.2 ⟨tuned.reports (.record g' _), rfl, rfl,
        answered.before (.record g' _)⟩)
  | toggleTheme =>
    have theme : d.app.toolbar.theme < g.cells.length := by
      rw [h.rigged.toolbar]
      exact h.rigged.theme
    simp only [use, App.toggleTheme, Toolbar.toggleTheme, Action.Done, ends_bind, Action.ends_look,
      theme, true_and, Action.ends_say, ends_pure, Uses]
    rw [h.rigged.toolbar]
    refine (t.put h h.rigged.theme (t.suits_theme h _)).imp ?_
    rintro _ g' ⟨-, -, tuned, answered⟩
    exact ⟨tuned.reports (.record g' _), answered.before (.record g' _)⟩
  | toggleScripts =>
    simp only [use, Action.Done, ends_bind]
    refine (t.toggleScripts h).imp ?_
    rintro r g' ⟨tuned, permits⟩
    exact ends_pure.2 ⟨tuned, rfl, permits⟩
  | reload =>
    simp only [use, Action.Done, ends_bind]
    refine Controller.reload_done.imp ?_
    rintro r g' ⟨parts, world⟩
    exact ends_pure.2 ⟨t.reloaded parts world, rfl, Graph.value_congr parts.cells, world⟩
  | unmanage =>
    simp only [use, Controller.manage, Action.Done, ends_bind, Action.ends_state,
      Action.ends_sayAll, Action.ends_update, ends_pure, Graph.recordAll_world]
    refine ⟨t.congr ⟨by simp, by simp, by simp⟩ rfl rfl rfl rfl, rfl,
      Graph.value_congr (by simp), rfl⟩
  | keep name =>
    simp only [use, Action.Done, ends_bind, Action.ends_state, Uses]
    cases hs : g.world.bound with
    | none => exact ends_pure.2 ⟨t, .refl g, rfl⟩
    | some story =>
      obtain ⟨b, inTurn⟩ := t.inTurn h hs
      refine ends_pure.2 ⟨t.keeping fun {name' c} hk => ?_, .refl g, rfl⟩
      rw [Entries.get?_insert] at hk
      split at hk
      · exact Option.some.inj hk ▸ ⟨inTurn.theme, inTurn.scripts⟩
      · exact t.kept hk
  | watch name view =>
    simp only [use, Action.Done, ends_bind]
    refine ((t.watch h name view).and (h.watch name view)).imp ?_
    rintro e g₁ ⟨⟨tuned, rests⟩, sound, -⟩
    split
    · rename_i old ho
      have dropped := tuned.drop sound (sound.rigged.watchers (Entries.mem_of_get? ho)).2
      exact ends_drop.2 (ends_pure.2 ⟨dropped.keeping t.kept, ⟨_, rfl⟩, rests.trans (.drop old)⟩)
    · exact ends_pure.2 ⟨tuned.keeping t.kept, ⟨_, rfl⟩, rests⟩
  | _ => exact absurd trivial looks

/-- A plain step does what it should, and leaves the listeners of a desk in order. -/
theorem Tuned.plain (t : d.Tuned g) (h : d.Sound φ g) {s : Step} (hs : s.IsPlain) :
    (d.step s).Done g fun r g' => r.2.Tuned g' ∧ d.Takes g s r.1 r.2 g' := by
  cases s with
  | use u =>
    simp only [step, Action.Done, ends_bind, Action.ends_state, Takes]
    split
    · exact t.usePlain h hs
    · exact ends_pure.2 ⟨t, rfl, .refl g⟩
  | page c =>
    simp only [step, Action.changePage, Action.Done, ends_bind, Action.ends_onPage, ends_pure]
    exact ⟨t.onPage _, rfl, rfl, rfl⟩
  | resume name => exact hs.elim
  | setTheme theme =>
    simp only [step, Stored.set, Action.Done, ends_bind]
    refine (t.put h h.rigged.theme (t.suits_theme h theme)).imp ?_
    rintro _ g' ⟨-, -, tuned, answered⟩
    exact ends_pure.2 ⟨tuned, rfl, answered⟩
  | setArguments name args =>
    simp only [step, Takes]
    cases hc : d.kept.get? name with
    | none => exact ends_pure.2 ⟨t, rfl, .refl g⟩
    | some c =>
      obtain ⟨theme, scripts⟩ := t.kept hc
      refine ends_bind.2 ((t.put h (h.rigged.kept hc) (suits_arguments theme scripts args)).imp ?_)
      rintro _ g' ⟨sound, -, tuned, answered⟩
      obtain ⟨x, hx⟩ := Graph.exists_cellView (sound.rigged.kept hc)
      exact ends_inspect.2 ⟨x, hx, ends_pure.2 ⟨tuned, rfl, answered⟩⟩
  | unwatch name =>
    simp only [step]
    split
    · exact ends_pure.2 ⟨t, ⟨d.watchers, rfl⟩, rfl, .refl _⟩
    · rename_i e he
      have dropped := t.drop h (h.rigged.watchers (Entries.mem_of_get? he)).2
      exact ends_drop.2 (ends_pure.2 ⟨dropped.keeping t.kept, ⟨_, rfl⟩, .drop e⟩)
  | close => exact hs.elim

/-- Every step leaves the listeners of a desk in order. -/
theorem Tuned.step (t : d.Tuned g) (h : d.Sound φ g) (s : Step) :
    (d.step s).Done g fun r g' => r.2.Tuned g' := by
  by_cases hs : s.IsPlain
  · exact (t.plain h hs).imp fun r g' post => post.1
  cases s with
  | use u =>
    simp only [Desk.step, Action.Done, ends_bind, Action.ends_state]
    split
    · rename_i ho
      cases u with
      | visit =>
        simp only [Desk.use, ends_bind]
        refine (t.start h ho).imp fun p g' ready => ?_
        split <;> exact ends_pure.2 (ready.tuned t d.cycles)
      | start name =>
        simp only [Desk.use, ends_bind]
        refine (t.start h ho).imp fun p g' ready => ends_pure.2 ?_
        cases p <;> exact ready.tuned t _
      | dispose =>
        simp only [Desk.use, ends_bind]
        exact (t.dispose h ho).imp fun _ g' ready => ends_pure.2 (ready.tuned t d.cycles)
      | _ => exact absurd trivial hs
    · exact ends_pure.2 t
  | resume name =>
    simp only [Desk.step]
    split
    · exact ends_pure.2 t
    · rename_i c hc
      refine ends_bind.2 ((t.resume h hc).imp fun p g' ready => ends_pure.2 ?_)
      cases p <;> exact ready.tuned t _
  | close =>
    simp only [Desk.step, Action.Done, ends_bind, Action.ends_state]
    split
    · exact ends_bind.2 ((t.close h).imp fun _ g' tuned => ends_pure.2 tuned)
    · exact ends_pure.2 t
  | _ => exact absurd trivial hs

end App.Desk
end StoryPreview
