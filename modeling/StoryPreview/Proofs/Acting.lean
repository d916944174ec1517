import StoryPreview.Proofs.Writing
/-!
What the actions of a user do to a sound desk, those that change cells or the page and those that
give up what is bound.
-/
namespace StoryPreview
open Reactive Program
namespace App.Desk
variable {φ ψ : Aspect → Prop} {d : Desk} {g g' : System}

/-- What a bound story stands on when its cells and effects stay and the page is not disturbed. -/
theorem Bound.transfer {b : Bindings} {story : BoundStory} (h : d.Bound φ g b story)
    (hψ : ∀ a, ψ a → φ a) (kin : g.Kin g') (value : g'.value = g.value)
    (bindings : g'.world.bindings = g.world.bindings) (bound : g'.world.bound = g.world.bound)
    (address : g'.world.address = g.world.address)
    (origin : g'.world.page.origin = g.world.page.origin)
    (location : ψ .location → g'.world.page.location = g.world.page.location)
    (frames : ψ .frames → g'.world.page.srcBase = g.world.page.srcBase ∧
      ∀ f, g'.world.page.sourceOf f = g.world.page.sourceOf f)
    (session : ∀ f, g'.world.session.managed = some f → g.world.session.managed = some f)
    (managed : ψ .session → g'.world.session.managed = g.world.session.managed) :
    d.Bound ψ g' b story where
  bindings := bindings.trans h.bindings
  bound := bound.trans h.bound
  url := kin.runs_iff.2 h.url
  address := by
    rw [origin]
    exact kin.runs_iff.2 h.address
  live := fun hr => h.live (kin.runs_iff.1 hr)
  current := by rw [origin, value, address, h.current]
  located := by
    intro hl
    rw [value]
    exact (h.located (hψ _ hl)).congr (location hl)
  framed := by
    intro hl f hm
    have leads := h.framed (hψ _ hl) f (session f hm)
    unfold Page.Leads at leads ⊢
    rwa [origin, value, (frames hl).1, (frames hl).2 f]
  managed := by
    intro hl
    rw [managed hl]
    exact h.managed (hψ _ hl)

theorem Free.transfer (h : Free g) (kin : g.Kin g')
    (bindings : g'.world.bindings = g.world.bindings) (bound : g'.world.bound = g.world.bound)
    (address : g'.world.address = g.world.address) : Free g' where
  bindings := bindings.trans h.bindings
  bound := bound.trans h.bound
  address := address.trans h.address
  live := fun hr => h.live (kin.runs_iff.1 hr)

/-- A preview that does something to its page, but not to its location, its frames' sources or the
current address, leaves a sound desk sound. -/
theorem Sound.quiet (h : d.Sound φ g) (parts : g.SameParts g') (scopes : g'.scopes = g.scopes)
    (follows : g.world.Follows g'.world) (location : g'.world.page.location = g.world.page.location)
    (frames : ∀ f, g'.world.page.sourceOf f = g.world.page.sourceOf f)
    (address : g'.world.address = g.world.address) : d.Sound φ g' where
  rigged := h.rigged.same parts scopes
  attended := h.attended.follows follows
  standing := by
    have kin := parts.kin scopes
    refine h.standing.imp (fun free => free.transfer kin follows.bindings follows.bound address) ?_
    rintro ⟨b, story, bound⟩
    refine ⟨b, story, bound.transfer (fun _ => id) kin (Graph.value_congr parts.cells)
        follows.bindings follows.bound address follows.page.setting.origin (fun _ => location)
        (fun _ => ⟨follows.page.setting.srcBase, frames⟩) ?_ fun _ => by rw [follows.session]⟩
    rw [follows.session]
    exact fun _ => id

/-- Soundness is a matter of cells, listeners, effects, scopes and the world. -/
theorem sound_congr (parts : g.SameParts g') (scopes : g'.scopes = g.scopes)
    (world : g'.world = g.world) : d.Sound φ g' ↔ d.Sound φ g := by
  constructor
  · intro h
    exact h.quiet ⟨parts.cells.symm, parts.listeners.symm, parts.effects.symm⟩ scopes.symm
      (by rw [world]; exact .refl _) (by rw [world])
        (by rw [world]; exact fun _ => rfl) (by rw [world])
  · intro h
    exact h.quiet parts scopes (by rw [world]; exact .refl _) (by rw [world])
      (by rw [world]; exact fun _ => rfl) (by rw [world])

@[simp] theorem sound_record (e : Event Signal) : d.Sound φ (g.record e) ↔ d.Sound φ g :=
  sound_congr ⟨rfl, rfl, rfl⟩ rfl rfl

@[simp] theorem sound_withSpan (span : Option Span) : d.Sound φ (g.withSpan span) ↔ d.Sound φ g :=
  sound_congr ⟨rfl, rfl, rfl⟩ rfl rfl

/-- A call that neither replaces the location nor assigns a source. -/
theorem Sound.call (h : d.Sound φ g) {c : Call} (hl : c.kind ≠ .replaceUrl)
    (hs : c.kind ≠ .setSrc) :
    d.Sound φ (g.withWorld { g.world with page := (g.world.page.call c).2 }) :=
  h.quiet ⟨rfl, rfl, rfl⟩ rfl ⟨rfl, .call .refl c⟩ (Page.call_location hl)
    (Page.call_sourceOf hs) rfl

/-- The current address can be assigned again to the managed frame. -/
theorem Sound.reassign (h : d.Sound φ g) {a : Address} {f : FrameId} (ha : g.world.address = some a)
    (hm : g.world.session.managed = some f) :
    d.Sound φ (g.withWorld { g.world with page := (g.world.page.call (.setSrc f a.text)).2 }) where
  rigged := h.rigged.same ⟨rfl, rfl, rfl⟩ rfl
  attended := h.attended.follows ⟨rfl, .call .refl _⟩
  standing := by
    refine h.standing.imp (fun free => free.transfer
      (Graph.SameParts.kin ⟨rfl, rfl, rfl⟩ rfl) rfl rfl rfl) ?_
    rintro ⟨b, story, bound⟩
    have origin : (g.world.page.call (.setSrc f a.text)).2.origin = g.world.page.origin :=
      (Page.SameSetting.call _ _).origin
    have current : a = (d.route story g.world.page.origin).address g.value :=
      Option.some.inj (ha.symm.trans bound.current)
    refine ⟨b, story, bound.bindings, bound.bound, bound.url, ?_, bound.live, ?_, ?_, ?_,
      bound.managed⟩
    · simp only [Graph.withWorld_world, origin]
      exact bound.address
    · simp only [Graph.withWorld_world, origin]
      exact bound.current
    · intro hl
      exact (bound.located hl).congr (Page.call_location (by simp [Call.kind]))
    · intro hl f' hm'
      obtain rfl := Option.some.inj (hm.symm.trans hm')
      obtain ⟨framed, managed⟩ := h.attended.frames hl
      simp only [Graph.withWorld_world, origin]
      rw [current]
      exact Page.leads_setSrc framed.allowed (managed f hm) _

theorem Sound.reload (h : d.Sound φ g) :
    Controller.reload.Done g fun _ g' => d.Sound φ g' ∧ g.world.Follows g'.world := by
  simp only [Controller.reload, Action.Done, ends_bind, Action.ends_state]
  split
  · simpa using And.intro h (.refl _)
  · simpa using And.intro h (.refl _)
  · rename_i a f ha hm
    simp only [ends_bind, Action.ends_call]
    have assigned := h.reassign ha hm
    have follows :
        g.world.Follows { g.world with page := (g.world.page.call (.setSrc f a.text)).2 } :=
      ⟨rfl, .call .refl _⟩
    split
    · simpa using And.intro assigned follows
    · simpa using And.intro assigned follows

theorem Sound.putArguments (h : d.Sound φ g) {story : BoundStory} (hs : g.world.bound = some story)
    (args : Arguments) : Action.Done (Action.put story.arguments (.arguments args)) g fun _ g' =>
      d.Sound φ g' ∧ g.world.Follows g'.world ∧
        ((g'.value story.arguments).asArguments = (g.value story.arguments).asArguments ∨
          (g'.value story.arguments).asArguments = args) := by
  refine (h.put (h.fits story hs)).imp ?_
  rintro _ g' ⟨sound, follows, value⟩
  refine ⟨sound, follows, ?_⟩
  rcases value with ⟨-, rfl⟩ | ⟨-, value⟩
  · exact .inl rfl
  · rw [value, Function.update_self]
    exact .inr rfl

theorem Sound.edit (h : d.Sound φ g) {story : BoundStory} (hs : g.world.bound = some story)
    (key : String) (input : Input) : (App.edit story.arguments key input).Done g fun _ g' =>
      d.Sound φ g' ∧ g.world.Follows g'.world ∧
        ((g'.value story.arguments).asArguments = (g.value story.arguments).asArguments ∨
          (g'.value story.arguments).asArguments =
            (g.value story.arguments).asArguments.insert key input.value) := by
  simp only [App.edit, Action.Done, ends_bind, Action.ends_say, Action.ends_look,
    Graph.record_cells, h.fits story hs, true_and]
  exact (sound_record _).2 h |>.putArguments hs _

theorem Sound.resetArguments (h : d.Sound φ g) {story : BoundStory}
    (hs : g.world.bound = some story) : (Toolbar.resetArguments story).Done g fun _ g' =>
      d.Sound φ g' ∧ g.world.Follows g'.world ∧
        ((g'.value story.arguments).asArguments = (g.value story.arguments).asArguments ∨
          (g'.value story.arguments).asArguments = story.defaults) := by
  simp only [Toolbar.resetArguments, Action.Done, ends_bind, Action.ends_say]
  refine (h.putArguments hs story.defaults).imp ?_
  rintro _ g' ⟨sound, rest⟩
  exact ⟨(sound_record _).2 sound, rest⟩

theorem Sound.toggleTheme (h : d.Sound φ g) :
    d.app.toggleTheme.Done g fun _ g' => d.Sound φ g' ∧ g.world.Follows g'.world := by
  have theme : d.app.toolbar.theme < g.cells.length := by
    rw [h.rigged.toolbar]
    exact h.rigged.theme
  simp only [App.toggleTheme, Toolbar.toggleTheme, Action.Done, ends_bind, Action.ends_look, theme,
    true_and, Action.ends_say, ends_pure, sound_record]
  exact (h.put theme).imp fun _ g' post => ⟨post.1, post.2.1⟩

theorem Sound.toggleScripts (h : d.Sound φ g) :
    d.app.toggleScripts.Done g fun _ g' => d.Sound φ g' ∧ g.world.Follows g'.world := by
  simp only [App.toggleScripts, Toolbar.toggleScripts, Action.Done, ends_bind, Action.ends_state]
  split
  · simpa using And.intro h (.refl _)
  · rename_i frame hm
    have called (value : String) := h.call (c := .setAttribute frame Toolbar.attributeName value)
      (by simp [Call.kind]) (by simp [Call.kind])
    have follows (value : String) : g.world.Follows { g.world with
        page := (g.world.page.call (.setAttribute frame Toolbar.attributeName value)).2 } :=
      ⟨rfl, .call .refl _⟩
    simp only [ends_bind, Action.ends_look, h.rigged.scripts, true_and, Action.ends_call]
    split
    · rw [ends_pure]
      exact ⟨called _, follows _⟩
    · simp only [ends_bind, Action.ends_say]
      refine ((called _).put h.rigged.scripts).imp ?_
      rintro _ g₁ ⟨sound, put, _⟩
      refine ((sound_record _).2 sound).reload.imp ?_
      rintro r g₂ ⟨sound', reload⟩
      have onward := ((follows _).trans put).trans reload
      split
      · exact ends_pure.2 ⟨sound', onward⟩
      · exact ends_pure.2 ⟨sound', onward⟩

end App.Desk
end StoryPreview
