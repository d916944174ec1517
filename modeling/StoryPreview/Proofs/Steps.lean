import StoryPreview.Proofs.Starts
/-!
Steps of a preview. Every step comes to an end and leaves a sound desk sound; what it takes away is
an aspect of the page that it disturbs.
-/
namespace StoryPreview
open Reactive Program

/-- Whether a step leaves an aspect of a page alone that has `n` frames. Who takes the location, the
source of a frame or the session is not the preview; the page must go on to carry out what keeps the
aspect up. -/
def App.Step.Leaves (n : Nat) : Aspect → App.Step → Prop
  | .location, .page (.moveTo _) => False
  | .location, .page (.allow .replaceUrl allowance) => allowance = none
  | .frames, .page (.setSource _ _) => False
  | .frames, .page (.allow .setSrc allowance) => allowance = none
  | .frames, .page (.placeFrame _ frame) => ∀ f, frame = some f → f < n
  | .session, .use .unmanage => False
  | _, _ => True

namespace Page
variable {p : Page}

theorem change_deeds (p : Page) (c : Change) : (p.change c).deeds = p.deeds := by cases c <;> rfl

theorem SamePlace.change (p : Page) (c : Change) : p.SamePlace (p.change c) := by
  cases c with
  | setSource f src => exact ⟨List.length_modify .., rfl, rfl⟩
  | setAttribute f name value => exact ⟨List.length_modify .., rfl, rfl⟩
  | _ => exact ⟨rfl, rfl, rfl⟩

/-- A kind of calls is still allowed after a change that does not limit it. -/
theorem change_allowance {c : Change} {k : CallKind} (h : p.allowance k = none)
    (hc : ∀ allowance, c = .allow k allowance → allowance = none) :
    (p.change c).allowance k = none := by
  cases c with
  | allow kind allowance =>
    simp only [Page.change, Page.allow]
    split
    · rename_i hk
      subst hk
      exact hc allowance rfl
    · exact h
  | _ => exact h

theorem change_location {c : Change} (hc : App.Step.Leaves p.frames.length .location (.page c)) :
    (p.change c).location = p.location := by
  cases c with
  | moveTo location => exact hc.elim
  | _ => rfl

theorem Located.change (h : p.Located) {c : Change}
    (hc : App.Step.Leaves p.frames.length .location (.page c)) : (p.change c).Located where
  allowed := by
    refine change_allowance h.allowed fun allowance ha => ?_
    subst ha
    exact hc
  wellFormed := by
    rw [change_location hc]
    exact h.wellFormed

theorem change_sourceOf {c : Change} (hc : App.Step.Leaves p.frames.length .frames (.page c))
    (f : FrameId) : (p.change c).sourceOf f = p.sourceOf f := by
  cases c with
  | setSource f src => exact hc.elim
  | setAttribute g name value =>
    simp only [Page.change, sourceOf_modifyFrame]
    simp only [Page.sourceOf, Page.frame?]
    cases p.frames[f]? with
    | none => rfl
    | some x => by_cases hg : g = f <;> simp [hg]
  | _ => rfl

theorem Framed.change (h : p.Framed) {c : Change}
    (hc : App.Step.Leaves p.frames.length .frames (.page c)) : (p.change c).Framed where
  allowed := by
    refine change_allowance h.allowed fun allowance ha => ?_
    subst ha
    exact hc
  placed := by
    intro id f hf
    rw [(SamePlace.change p c).frames]
    cases c with
    | placeFrame id' frame =>
      cases frame with
      | none => exact h.placed (Entries.mem_of_erase hf)
      | some f' =>
        rcases Entries.mem_of_insert hf with rfl | hf
        · exact hc f rfl
        · exact h.placed hf
    | _ => exact h.placed hf
  shown := by
    intro f src hf hs
    rw [(SamePlace.change p c).frames] at hf
    rw [change_sourceOf hc, (SamePlace.change p c).srcBase]
    refine h.shown hf ?_
    rwa [content?, change_deeds] at hs

end Page
theorem Reactive.Graph.exists_cellView {B V W : Type} {g : Graph B V W} {c : CellId}
    (hc : c < g.cells.length) : ∃ x, g.cellView? c = some x := by
  rw [Graph.cellView?, List.getElem?_eq_getElem hc]
  exact ⟨_, rfl⟩

structure Preview.Keeps (s s' : Preview) : Prop where
  rest : s' = { s with page := s'.page, session := s'.session, address := s'.address }
  page : s.page.SamePlace s'.page

namespace Preview.Keeps
variable {s s' : Preview}

theorem refl (s : Preview) : s.Keeps s := ⟨rfl, .refl _⟩

theorem status (h : s.Keeps s') : s'.status = s.status := by rw [h.rest]
theorem generation (h : s.Keeps s') : s'.generation = s.generation := by rw [h.rest]
theorem bindings (h : s.Keeps s') : s'.bindings = s.bindings := by rw [h.rest]

end Preview.Keeps

theorem Preview.Follows.keeps {s s' : Preview} (h : s.Follows s') : s.Keeps s' where
  rest := by
    have rest := h.rest
    rw [rest]
  page := h.page.setting.toSamePlace

namespace App

/-- Whether a step neither starts, resumes nor ends a cycle, nor closes the preview. -/
def Step.IsPlain : Step → Prop
  | .use .visit | .use (.start _) | .use .dispose | .resume _ | .close => False
  | _ => True

namespace Desk
variable {φ ψ : Aspect → Prop} {d : Desk} {g g' : System}

theorem Bound.mono {b : Bindings} {story : BoundStory} (h : d.Bound φ g b story)
    (hψ : ∀ a, ψ a → φ a) : d.Bound ψ g b story :=
  h.transfer hψ (.refl g) rfl rfl rfl rfl rfl (fun _ => rfl)
    (fun _ => ⟨rfl, fun _ => rfl⟩) (fun _ => id) fun _ => rfl

theorem Attended.mono {s : Preview} (h : d.Attended φ s) (hψ : ∀ a, ψ a → φ a) :
    d.Attended ψ s where
  distinct := h.distinct
  cycles := by
    obtain ⟨last, ordered⟩ := h.cycles
    refine ⟨last, fun hc => ⟨(ordered hc).1, fun he => ?_⟩⟩
    obtain ⟨hn, hb, hm⟩ := (ordered hc).2 he
    exact ⟨hn, hb, fun hs => hm (hψ _ hs)⟩
  location := fun hl => h.location (hψ _ hl)
  frames := fun hl => h.frames (hψ _ hl)
  status := h.status

/-- What has been left alone less counts for less. -/
theorem Sound.mono (h : d.Sound φ g) (hψ : ∀ a, ψ a → φ a) : d.Sound ψ g :=
  ⟨h.rigged, h.attended.mono hψ, h.standing.imp id fun ⟨b, story, bound⟩ =>
    ⟨b, story, bound.mono hψ⟩⟩

/-- A change of the page costs the aspects that it disturbs. -/
theorem Sound.change (h : d.Sound φ g) (c : Page.Change) :
    d.Sound (fun a => φ a ∧ Step.Leaves g.world.page.frames.length a (.page c))
      (g.withWorld { g.world with page := g.world.page.change c }) where
  rigged := h.rigged.same ⟨rfl, rfl, rfl⟩ rfl
  attended :=
    { distinct := h.attended.distinct
      cycles := (h.attended.mono fun _ => And.left).cycles
      location := fun ⟨hl, hc⟩ => (h.attended.location hl).change hc
      frames := fun ⟨hl, hc⟩ => by
        refine ⟨(h.attended.frames hl).1.change hc, fun f hf => ?_⟩
        simp only [Graph.withWorld_world, (Page.SamePlace.change _ c).frames]
        exact (h.attended.frames hl).2 f hf
      status := h.attended.status }
  standing := by
    refine h.standing.imp (fun free => ⟨free.bindings, free.bound, free.address, free.live⟩) ?_
    rintro ⟨b, story, bound⟩
    refine ⟨b, story, ?_⟩
    exact bound.transfer (fun _ => And.left)
      (Graph.SameParts.kin ⟨rfl, rfl, rfl⟩ rfl) rfl rfl rfl rfl
      (Page.SamePlace.change _ c).origin (fun hc => Page.change_location hc.2)
      (fun hc => ⟨(Page.SamePlace.change _ c).srcBase, Page.change_sourceOf hc.2⟩)
        (fun _ => id) fun _ => rfl

theorem Sound.unmanage (h : d.Sound φ g) : (Controller.manage none).Done g fun _ g' =>
    d.Sound (fun a => φ a ∧ a ≠ .session) g' ∧ g.world.Keeps g'.world := by
  simp only [Controller.manage, Action.Done, ends_bind, Action.ends_state, Action.ends_sayAll,
    Action.ends_update]
  refine ⟨⟨h.rigged.same ⟨by simp, by simp, by simp⟩ (by simp),
    ⟨h.attended.distinct, ?_, ?_, ?_, ?_⟩, ?_⟩, ?_⟩
  all_goals simp only [Graph.withWorld_world, Graph.recordAll_world]
  · obtain ⟨last, ordered⟩ := h.attended.cycles
    refine ⟨last, fun hc => ⟨(ordered hc).1, fun he => ?_⟩⟩
    exact ⟨((ordered hc).2 he).1, ((ordered hc).2 he).2.1, fun hs => absurd rfl hs.2⟩
  · exact fun hl => h.attended.location hl.1
  · exact fun hl => ⟨(h.attended.frames hl.1).1, fun f hf => by cases hf⟩
  · exact h.attended.status
  · rcases h.standing with free | ⟨b, story, bound⟩
    · refine .inl ?_
      exact free.transfer (Graph.SameParts.kin ⟨by simp, by simp, by simp⟩ (by simp))
        (by simp) (by simp) (by simp)
    · refine .inr ⟨b, story, ?_⟩
      exact bound.transfer (fun _ => And.left)
        (Graph.SameParts.kin ⟨by simp, by simp, by simp⟩ (by simp))
        (Graph.value_congr (by simp)) (by simp) (by simp) (by simp) (by simp) (by simp) (by simp)
        (by simp [Session.manage]) fun hs => absurd rfl hs.2
  · exact ⟨rfl, .refl _⟩

/-- A desk may keep other cells and watchers than another, if they are there. -/
theorem Sound.keeping (h : d.Sound φ g) {kept : Entries CellId} {watchers : Entries EffectId}
    (hk : ∀ {name : String} {c : CellId}, kept.get? name = some c → c < g.cells.length)
    (hw : ∀ {name : String} {e : EffectId}, (name, e) ∈ watchers →
      e < g.effects.length ∧ ∀ duty, g.Runs e duty → duty.IsWatch) :
    { d with kept := kept, watchers := watchers }.Sound φ g where
  rigged := { h.rigged with kept := hk, watchers := hw }
  attended := ⟨h.attended.distinct, h.attended.cycles, h.attended.location, h.attended.frames,
    h.attended.status⟩
  standing := h.standing.imp id fun ⟨b, story, bound⟩ =>
    ⟨b, story, bound.bindings, bound.bound, bound.url, bound.address, bound.live, bound.current,
      bound.located, bound.framed, bound.managed⟩

theorem Sound.watched (h : d.Sound φ g) {duty : Duty} (hd : duty.IsWatch)
    (hs : App.calm.Spawned duty g g') : d.Sound φ g' ∧ g.world.Follows g'.world := by
  have follows : g.world.Follows g'.world := Duty.Acts.follows hs.acts
  have value : g'.value = g.value := hs.steady.value_eq
  have origin := follows.page.setting.origin
  have runs {e : EffectId} {duty' : Duty} (hr : g'.Runs e duty') (hlt : e < g.effects.length) :
      g.Runs e duty' := by
    rcases hs.runs.1 hr with hr | ⟨rfl, -⟩
    · exact hr
    · exact absurd hlt (Nat.lt_irrefl _)
  have live {e : EffectId} {duty' : Duty} (hr : g'.Runs e duty') : duty'.IsWatch ∨
      g.Runs e duty' := by
    rcases hs.runs.1 hr with hr | ⟨-, rfl⟩
    · exact .inr hr
    · exact .inl hd
  refine ⟨⟨?_, h.attended.follows follows, ?_⟩, follows⟩
  · exact h.rigged.of hs.wired hs.scopes (Nat.le_of_eq hs.steady.length_eq.symm) hs.steady.reaction
      (by rw [hs.length]; exact Nat.le_succ _) fun hlt hr => runs hr hlt
  · rcases h.standing with free | ⟨b, story, bound⟩
    · refine .inl ⟨by rw [follows.bindings, free.bindings], by rw [follows.bound, free.bound], ?_,
        fun hr => ?_⟩
      · exact (hd.sourceOf hs.acts 0).2.trans free.address
      · exact (live hr).elim id free.live
    · refine .inr ⟨b, story, by rw [follows.bindings, bound.bindings],
        by rw [follows.bound, bound.bound], hs.runs.2 (.inl bound.url), ?_, fun hr =>
          (live hr).elim .inl bound.live, ?_, fun hl => ?_, fun hl f hf => ?_, fun hl => ?_⟩
      · rw [origin]
        exact hs.runs.2 (.inl bound.address)
      · rw [origin, value]
        exact (hd.sourceOf hs.acts 0).2.trans bound.current
      · rw [value]
        exact (bound.located hl).congr (hd.location hs.acts)
      · rw [follows.session] at hf
        rw [origin, value]
        exact (bound.framed hl f hf).congr (hd.sourceOf hs.acts f).1 follows.page.setting
      · rw [follows.session]
        exact bound.managed hl

/-- Giving up an effect that is none of the bound story. -/
theorem Sound.drop (h : d.Sound φ g) {e : EffectId} (he : ∀ duty, g.Runs e duty → duty.IsWatch) :
    d.Sound φ (g.drop e) := by
  have runs {e' : EffectId} {duty : Duty} (hr : (g.drop e).Runs e' duty) : g.Runs e' duty :=
    (Graph.drop_runs.1 hr).2
  have value : (g.drop e).value = g.value := Graph.value_congr Graph.drop_cells
  refine ⟨h.rigged.drop e, by rw [Graph.drop_world]; exact h.attended, ?_⟩
  rcases h.standing with free | ⟨b, story, bound⟩
  · exact .inl ⟨by rw [Graph.drop_world, free.bindings], by rw [Graph.drop_world, free.bound],
      by rw [Graph.drop_world, free.address], fun hr => free.live (runs hr)⟩
  · have url : e ≠ b.url := by
      rintro rfl
      exact he _ bound.url
    have address : e ≠ b.address := by
      rintro rfl
      exact he _ bound.address
    have world : (g.drop e).world = g.world := Graph.drop_world
    refine .inr ⟨b, story, ⟨by rw [world, bound.bindings], by rw [world, bound.bound],
      Graph.drop_runs.2 ⟨url, bound.url⟩, ?_, fun hr => bound.live (runs hr), ?_, ?_, ?_, ?_⟩⟩
    all_goals rw [world]
    · exact Graph.drop_runs.2 ⟨address, bound.address⟩
    · rw [value]
      exact bound.current
    · rw [value]
      exact bound.located
    · rw [value]
      exact bound.framed
    · exact bound.managed

theorem Sound.watch (h : d.Sound φ g) (name : String) (view : View) :
    (d.app.watch name view).Done g fun e g' => d.Sound φ g' ∧ g.world.Follows g'.world ∧
      e < g'.effects.length ∧ ∀ duty, g'.Runs e duty → duty.IsWatch := by
  refine spawn_done h.rigged.wired (fun c hc => ?_) h.fits fun g' hs => ends_done.2 ?_
  · simp only [Duty.mentions, List.mem_cons, List.not_mem_nil, or_false] at hc
    rcases hc with rfl | rfl
    · rw [h.rigged.toolbar]
      exact h.rigged.theme
    · exact h.rigged.scripts
  · obtain ⟨sound, follows⟩ := h.watched (by trivial : (Duty.watch name view _ _).IsWatch) hs
    refine ⟨sound, follows, by rw [hs.length]; exact Nat.lt_succ_self _, fun duty hr => ?_⟩
    rcases hs.runs.1 hr with hr | ⟨-, rfl⟩
    · exact absurd hr.lt (Nat.lt_irrefl _)
    · trivial

def Use.Looks : Use → Prop
  | .controls | .labels | .settings | .bound => True
  | _ => False

/-- A use that only looks changes nothing. -/
theorem Sound.looks (h : d.Sound φ g) {u : Use} (hu : Use.Looks u) :
    (d.use u).Done g fun r g' => r.2 = d ∧ g' = g := by
  have fits := h.fits
  cases u with
  | controls =>
    simp only [use, controls, Action.Done, ends_bind, Action.ends_state]
    split
    · exact ends_pure.2 (ends_pure.2 ⟨rfl, rfl⟩)
    · rename_i story hs
      simp only [ends_bind, Action.ends_look, fits story hs, true_and, ends_pure]
  | labels =>
    have theme : d.app.toolbar.theme < g.cells.length := by
      rw [h.rigged.toolbar]
      exact h.rigged.theme
    have track (c : CellId) : g.track c = g := Graph.track_untracked g c h.rigged.scopes
    simp only [use, Toolbar.labels, Action.Done, ends_bind, Action.ends_follow, h.rigged.scripts,
      track, theme, true_and, ends_pure]
  | settings => exact ends_pure.2 ⟨rfl, rfl⟩
  | bound =>
    simp only [use, Action.Done, ends_bind, Action.ends_state]
    split
    · exact ends_pure.2 ⟨rfl, rfl⟩
    · rename_i story hs
      obtain ⟨x, hx⟩ := Graph.exists_cellView (fits story hs)
      exact ends_inspect.2 ⟨x, hx, ends_pure.2 ⟨rfl, rfl⟩⟩
  | _ => exact hu.elim

structure Stays (ψ : Aspect → Prop) (d : Desk) (g : System) (d' : Desk) (g' : System) : Prop where
  sound : d'.Sound ψ g'
  app : d'.app = d.app
  cycles : d'.cycles = d.cycles
  keeps : g.world.Keeps g'.world

theorem Stays.of (h : d.Sound φ g') (hψ : ∀ a, ψ a → φ a) (follows : g.world.Follows g'.world) :
    d.Stays ψ g d g' := ⟨h.mono hψ, rfl, rfl, follows.keeps⟩

theorem Stays.mono {d' : Desk} (h : d.Stays φ g d' g') (hψ : ∀ a, ψ a → φ a) : d.Stays ψ g d' g' :=
  ⟨h.sound.mono hψ, h.app, h.cycles, h.keeps⟩

theorem Sound.useKeep (h : d.Sound φ g) (name : String) :
    (d.use (.keep name)).Done g fun r g' => d.Stays φ g r.2 g' := by
  simp only [use, Action.Done, ends_bind, Action.ends_state]
  split
  · exact ends_pure.2 ⟨h, rfl, rfl, .refl _⟩
  · rename_i story hs
    refine ends_pure.2 ⟨h.keeping (fun {name' c} hk => ?_) h.rigged.watchers, rfl, rfl, .refl _⟩
    rw [Entries.get?_insert] at hk
    split at hk
    · exact Option.some.inj hk ▸ h.fits story hs
    · exact h.rigged.kept hk

theorem Sound.useWatch (h : d.Sound φ g) (name : String) (view : View) :
    (d.use (.watch name view)).Done g fun r g' => d.Stays φ g r.2 g' := by
  simp only [use, Action.Done, ends_bind]
  refine (h.watch name view).imp ?_
  rintro e g₁ ⟨sound, follows, hlt, hw⟩
  have watchers {k : System} (hle : g₁.effects.length ≤ k.effects.length)
      (runs : ∀ {e' duty}, k.Runs e' duty → g₁.Runs e' duty) {name' : String} {e' : EffectId}
      (hk : (name', e') ∈ d.watchers.insert name e) :
      e' < k.effects.length ∧ ∀ duty, k.Runs e' duty → duty.IsWatch := by
    rcases Entries.mem_of_insert hk with rfl | hk
    · exact ⟨Nat.lt_of_lt_of_le hlt hle, fun duty hr => hw duty (runs hr)⟩
    · obtain ⟨hlt', hw'⟩ := sound.rigged.watchers hk
      exact ⟨Nat.lt_of_lt_of_le hlt' hle, fun duty hr => hw' duty (runs hr)⟩
  split
  · rename_i old ho
    have dropped := sound.drop (sound.rigged.watchers (Entries.mem_of_get? ho)).2
    refine ends_drop.2 (ends_pure.2 ⟨dropped.keeping dropped.rigged.kept (watchers (by simp) ?_),
      rfl, rfl, ?_⟩)
    · exact fun hr => (Graph.drop_runs.1 hr).2
    · rw [Graph.drop_world]
      exact follows.keeps
  · exact ends_pure.2 ⟨sound.keeping sound.rigged.kept (watchers (Nat.le_refl _) id), rfl, rfl,
      follows.keeps⟩

theorem Sound.usePlain (h : d.Sound φ g) {u : Use} (hu : (Step.use u).IsPlain) :
    (d.use u).Done g fun r g' =>
      d.Stays (fun a => φ a ∧ (Step.use u).Leaves g.world.page.frames.length a) g r.2 g' := by
  by_cases looks : Use.Looks u
  · refine (h.looks looks).imp ?_
    rintro r g' ⟨hr, rfl⟩
    rw [hr]
    exact .of h (fun _ => And.left) (.refl _)
  cases u with
  | visit => exact hu.elim
  | start name => exact hu.elim
  | dispose => exact hu.elim
  | edit key input =>
    simp only [use, editBound, Action.Done, ends_bind, Action.ends_state]
    split
    · simp only [ends_bind, Action.ends_say, ends_pure]
      exact .of ((sound_record _).2 h) (fun _ => And.left) (.refl _)
    · rename_i story hs
      refine ends_bind.2 ((h.edit hs key input).imp ?_)
      rintro _ g' ⟨sound, follows, _⟩
      exact ends_pure.2 (ends_pure.2 (.of sound (fun _ => And.left) follows))
  | reset =>
    simp only [use, resetBound, Action.Done, ends_bind, Action.ends_state]
    split
    · simp only [ends_bind, Action.ends_say, ends_pure]
      exact .of ((sound_record _).2 h) (fun _ => And.left) (.refl _)
    · rename_i story hs
      refine ends_bind.2 ((h.resetArguments hs).imp ?_)
      rintro _ g' ⟨sound, follows, _⟩
      exact ends_pure.2 (ends_pure.2 (.of sound (fun _ => And.left) follows))
  | toggleTheme =>
    simp only [use, Action.Done, ends_bind]
    refine h.toggleTheme.imp ?_
    rintro _ g' ⟨sound, follows⟩
    exact ends_pure.2 (.of sound (fun _ => And.left) follows)
  | toggleScripts =>
    simp only [use, Action.Done, ends_bind]
    refine h.toggleScripts.imp ?_
    rintro _ g' ⟨sound, follows⟩
    exact ends_pure.2 (.of sound (fun _ => And.left) follows)
  | reload =>
    simp only [use, Action.Done, ends_bind]
    refine h.reload.imp ?_
    rintro _ g' ⟨sound, follows⟩
    exact ends_pure.2 (.of sound (fun _ => And.left) follows)
  | unmanage =>
    simp only [use, Action.Done, ends_bind]
    refine h.unmanage.imp ?_
    rintro _ g' ⟨sound, keeps⟩
    refine ends_pure.2 ⟨sound.mono ?_, rfl, rfl, keeps⟩
    rintro a ⟨ha, hs⟩
    refine ⟨ha, ?_⟩
    rintro rfl
    exact hs
  | keep name => exact (h.useKeep name).imp fun _ _ stays => stays.mono fun _ => And.left
  | watch name view =>
    exact (h.useWatch name view).imp fun _ _ stays => stays.mono fun _ => And.left
  | _ => exact absurd trivial looks

/-- A plain step comes to an end and costs no more than what it disturbs. -/
theorem Sound.plain (h : d.Sound φ g) {s : Step} (hs : s.IsPlain) :
    (d.step s).Done g fun r g' =>
      d.Stays (fun a => φ a ∧ s.Leaves g.world.page.frames.length a) g r.2 g' := by
  cases s with
  | use u =>
    simp only [step, Action.Done, ends_bind, Action.ends_state]
    split
    · exact h.usePlain hs
    · exact ends_pure.2 (.of h (fun _ => And.left) (.refl _))
  | page c =>
    simp only [step, Action.changePage, Action.Done, ends_bind, Action.ends_onPage, ends_pure]
    exact ⟨h.change c, rfl, rfl, rfl, .change _ c⟩
  | resume name => exact hs.elim
  | setTheme t =>
    simp only [step, Stored.set, Action.Done, ends_bind]
    refine (h.put h.rigged.theme).imp ?_
    rintro _ g' ⟨sound, follows, _⟩
    exact ends_pure.2 (.of sound (fun _ => And.left) follows)
  | setArguments name args =>
    simp only [step]
    split
    · exact ends_pure.2 (.of h (fun _ => And.left) (.refl _))
    · rename_i c hc
      refine ends_bind.2 ((h.put (h.rigged.kept hc)).imp ?_)
      rintro _ g' ⟨sound, follows, _⟩
      obtain ⟨x, hx⟩ := Graph.exists_cellView (sound.rigged.kept hc)
      exact ends_inspect.2 ⟨x, hx, ends_pure.2 (.of sound (fun _ => And.left) follows)⟩
  | unwatch name =>
    simp only [step]
    split
    · exact ends_pure.2 (.of h (fun _ => And.left) (.refl _))
    · rename_i e he
      have dropped := h.drop (h.rigged.watchers (Entries.mem_of_get? he)).2
      refine ends_drop.2 (ends_pure.2 ⟨(dropped.keeping dropped.rigged.kept fun hk =>
        dropped.rigged.watchers (Entries.mem_of_erase hk)).mono fun _ => And.left, rfl, rfl, ?_⟩)
      rw [Graph.drop_world]
      exact .refl _
  | close => exact hs.elim

/-- A disposal leaves a preview idle, and every cycle that is kept older. -/
theorem Sound.dispose (h : d.Sound φ g) : Controller.dispose.Done g fun _ g' =>
    d.Underway φ g' ∧ g'.world = g.world.cleared .idle := by
  simp only [Controller.dispose, Controller.setStatus, Action.Done, ends_bind, Action.ends_update]
  refine (h.clear (k := g.withWorld { g.world with generation := g.world.generation.invalidate })
    ⟨rfl, rfl, rfl⟩ rfl rfl Status.idle (by simp)).imp ?_
  rintro _ g' ⟨underway, _, world⟩
  refine ⟨underway, ?_⟩
  rw [Graph.withWorld_world, world]
  rfl

/-- A preview that is closed has nothing bound and no cycle that waits. -/
theorem Sound.close (h : d.Sound φ g) : d.app.close.Done g fun _ g' =>
    { d with cycles := [] }.Sound φ g' ∧ g'.world =
      { g.world with isOpen := false, bindings := none, bound := none, address := none } := by
  simp only [App.close, Stored.close, Action.Done, ends_bind, Action.ends_update, ends_release,
    ends_done]
  have closed : d.Sound φ (g.withWorld { g.world with isOpen := false }) := by
    exact ⟨h.rigged.same ⟨rfl, rfl, rfl⟩ rfl,
      ⟨h.attended.distinct, h.attended.cycles, h.attended.location, h.attended.frames,
        fun ho => by cases ho⟩, h.standing_aside g.world.generation false⟩
  refine closed.unbind.imp ?_
  rintro _ g₁ ⟨rigged, free, _, world⟩
  obtain ⟨y, duty, hy, hr⟩ := rigged.writer
  have released : d.Rigged (g₁.release d.app.theme.writer) := by
    refine rigged.of (rigged.wired.release fun z hz e epoch hrerun => ?_) rfl (Nat.le_refl _)
      (Graph.Steady.releaseAll g₁ [d.app.theme.writer]).reaction (Nat.le_refl _) fun _ hr => hr
    rw [← Option.some.inj (hy.symm.trans hz), hr] at hrerun
    cases hrerun
  refine ⟨⟨released.withCycles [], ⟨.nil, ⟨"", fun hc => by cases hc⟩, fun hl => ?_, fun hl => ?_,
    fun ho => ?_⟩, .inl ⟨free.bindings, free.bound, free.address, free.live⟩⟩, world⟩
  all_goals simp only [Graph.release, world, Graph.withWorld_world] at *
  · exact h.attended.location hl
  · exact h.attended.frames hl
  · cases ho

end Desk

def Step.Supersedes : Step → Prop
  | .use .visit | .use (.start _) | .use .dispose => True
  | _ => False

namespace Desk
variable {φ ψ : Aspect → Prop} {d : Desk} {g g' : System}

structure Onward (s : Step) (d : Desk) (g : System) (d' : Desk) (g' : System) : Prop where
  app : d'.app = d.app
  page : g.world.page.SamePlace g'.world.page
  generation : g.world.generation.current ≤ g'.world.generation.current
  superseded : s.Supersedes → g.world.isOpen = true →
    g.world.generation.current < g'.world.generation.current
  cycles : ∀ {name : String} {c : Controller.Cycle}, d'.cycles.get? name = some c →
    s = .use (.start name) ∨ d.cycles.get? name = some c

theorem Onward.refl {s : Step} (hs : s.Supersedes → g.world.isOpen = false) : d.Onward s g d g :=
  ⟨rfl, .refl _, Nat.le_refl _, fun h ho => by simp [hs h] at ho, fun h => .inr h⟩

/-- A step that starts a cycle, or disposes of it, makes every cycle before stale. -/
theorem Onward.newer {s : Step} {d' : Desk} (app : d'.app = d.app)
    (page : g.world.page.SamePlace g'.world.page)
    (generation : g'.world.generation = g.world.generation.invalidate)
    (cycles : ∀ {name : String} {c : Controller.Cycle}, d'.cycles.get? name = some c →
      s = .use (.start name) ∨ d.cycles.get? name = some c) : d.Onward s g d' g' := by
  have newer : g.world.generation.current < g'.world.generation.current := by
    rw [generation]
    exact Nat.lt_succ_self _
  exact ⟨app, page, Nat.le_of_lt newer, fun _ _ => newer, cycles⟩

/-- Other steps leave the generation. -/
theorem Onward.kept {s : Step} {d' : Desk} (hs : ¬ s.Supersedes) (app : d'.app = d.app)
    (page : g.world.page.SamePlace g'.world.page)
    (generation : g'.world.generation = g.world.generation)
    (cycles : ∀ {name : String} {c : Controller.Cycle}, d'.cycles.get? name = some c →
      d.cycles.get? name = some c) :
    d.Onward s g d' g' :=
  ⟨app, page, Nat.le_of_eq (by rw [generation]), fun h => absurd h hs, fun hc => .inr (cycles hc)⟩

theorem Stays.onward {s : Step} {d' : Desk} (h : d.Stays ψ g d' g') (hs : s.IsPlain) :
    d.Onward s g d' g' := by
  refine .kept (fun hsup => ?_) h.app h.keeps.page h.keeps.generation fun hc => h.cycles ▸ hc
  cases s with
  | use u => cases u <;> first | exact hsup.elim | exact hs.elim
  | _ => exact hsup.elim

theorem ofProgress_app (d : Desk) (name : String) (p : Controller.Progress) :
    (d.ofProgress name p).2.app = d.app := by cases p <;> rfl

/-- Only the cycle of the name can be kept in place of what was kept. -/
theorem ofProgress_cycles (distinct : d.cycles.keys.Nodup) {name : String} {p : Controller.Progress}
    {name' : String} {c : Controller.Cycle}
    (hc : (d.ofProgress name p).2.cycles.get? name' = some c) :
    name' = name ∧ p = .pending c ∨ d.cycles.get? name' = some c := by
  cases p with
  | pending c' =>
    simp only [ofProgress, Entries.get?_insert] at hc
    split at hc
    · rename_i heq
      exact .inl ⟨heq.symm, by rw [Option.some.inj hc]⟩
    · exact .inr hc
  | ended o => exact .inr (Entries.get?_of_erase distinct hc).2

/-- A step comes to an end and leaves a sound desk sound, at the cost of what it disturbs. -/
theorem Sound.step (h : d.Sound φ g) (s : Step) :
    (d.step s).Done g fun r g' =>
      r.2.Sound (fun a => φ a ∧ s.Leaves g.world.page.frames.length a) g' ∧
      d.Onward s g r.2 g' := by
  -- Steps that are not plain start, resume or give up a cycle.
  by_cases hs : s.IsPlain
  · exact (h.plain hs).imp fun r g' stays => ⟨stays.sound, stays.onward hs⟩
  cases s with
  | use u =>
    simp only [Desk.step, Action.Done, ends_bind, Action.ends_state]
    split
    · cases u with
      | visit =>
        simp only [Desk.use, ends_bind]
        refine h.start.imp fun p g' started => ?_
        obtain ⟨generation, page⟩ := started.onward
        have onward : d.Onward (.use .visit) g d g' :=
          .newer rfl page.setting.toSamePlace generation .inr
        split <;> exact ends_pure.2 ⟨started.sound.mono fun _ => And.left, onward⟩
      | start name =>
        simp only [Desk.use, ends_bind]
        refine (h.without name).start.imp fun p g' started => ends_pure.2 ?_
        obtain ⟨generation, page⟩ := started.onward
        have distinct := (h.without name).attended.distinct
        refine ⟨(started.kept name).mono fun _ => And.left,
          .newer (ofProgress_app _ _ _) page.setting.toSamePlace generation fun hc => ?_⟩
        rcases ofProgress_cycles distinct hc with ⟨rfl, -⟩ | hc
        · exact .inl rfl
        · exact .inr (Entries.get?_of_erase h.attended.distinct hc).2
      | dispose =>
        simp only [Desk.use, ends_bind]
        refine h.dispose.imp ?_
        rintro _ g' ⟨underway, world⟩
        have page : g.world.page.SamePlace g'.world.page := by
          rw [world]
          exact .refl _
        exact ends_pure.2 ⟨underway.sound.mono fun _ => And.left,
          .newer rfl page (by rw [world]; rfl) .inr⟩
      | _ => exact absurd trivial hs
    · rename_i closed
      exact ends_pure.2 ⟨h.mono fun _ => And.left, .refl fun _ => Bool.not_eq_true _ ▸ closed⟩
  | resume name =>
    simp only [Desk.step]
    split
    · exact ends_pure.2 ⟨h.mono fun _ => And.left, .refl fun h => h.elim⟩
    · rename_i c hc
      refine ends_bind.2 ((h.resume hc).imp fun p g' resumed => ends_pure.2 ?_)
      obtain ⟨generation, page⟩ := resumed.onward
      refine ⟨(resumed.kept h hc).mono fun _ => And.left,
        .kept id (ofProgress_app _ _ _) page.setting.toSamePlace generation fun hk => ?_⟩
      rcases ofProgress_cycles h.attended.distinct hk with ⟨rfl, rfl⟩ | hk
      · exact resumed.pending rfl ▸ hc
      · exact hk
  | close =>
    simp only [Desk.step, Action.Done, ends_bind, Action.ends_state]
    split
    · refine ends_bind.2 (h.close.imp ?_)
      rintro _ g' ⟨sound, world⟩
      have page : g.world.page.SamePlace g'.world.page := by
        rw [world]
        exact .refl _
      exact ends_pure.2 ⟨sound.mono fun _ => And.left, .kept id rfl page (by rw [world]) fun hc =>
        by cases hc⟩
    · exact ends_pure.2 ⟨h.mono fun _ => And.left, .refl fun h => h.elim⟩
  | _ => exact absurd trivial hs

end Desk
end App
end StoryPreview
