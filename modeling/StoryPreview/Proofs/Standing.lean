import StoryPreview.Proofs.Duties
/-!
What is true of a preview between two steps. Its effects and cells are wired, no newer cycle has
been overtaken, and either nothing is bound and only watchers run, or a story is bound and two
effects keep the location of the page and the source of the frame at its arguments and the theme.

Others may disturb the page: they may take the location, the frames or the session away from the
preview. The aspects of the page that nobody has disturbed so far are a parameter of what follows.
-/
namespace StoryPreview
open Reactive

inductive Aspect where
  | location
  | frames
  | session

structure Preview.Follows (s s' : Preview) : Prop where
  rest : s' = { s with page := s'.page, address := s'.address }
  page : s.page.Reaches s'.page

namespace Preview.Follows
variable {s s' s'' : Preview}

theorem refl (s : Preview) : s.Follows s := ⟨rfl, .refl⟩

theorem trans (h : s.Follows s') (h' : s'.Follows s'') : s.Follows s'' where
  rest := by
    have hr := h'.rest
    rw [h.rest] at hr
    exact hr
  page := h.page.trans h'.page

theorem withArguments (s : Preview) (args : Arguments) :
    s.Follows { s with page := s.page.withArguments args } := ⟨rfl, .withArguments _ _⟩

theorem addressed {p : Page} (h : s.page.Reaches p) (a : Address) :
    s.Follows { s with address := some a, page := p } := ⟨rfl, h⟩

theorem ledTo (s : Preview) (a : Address) (origin : String) : s.Follows (s.ledTo a origin) := by
  unfold Preview.ledTo
  split
  · exact .addressed .refl a
  · exact .addressed (.ledTo _ _ _ _) a

theorem session (h : s.Follows s') : s'.session = s.session := by rw [h.rest]
theorem status (h : s.Follows s') : s'.status = s.status := by rw [h.rest]
theorem generation (h : s.Follows s') : s'.generation = s.generation := by rw [h.rest]
theorem bindings (h : s.Follows s') : s'.bindings = s.bindings := by rw [h.rest]
theorem bound (h : s.Follows s') : s'.bound = s.bound := by rw [h.rest]
theorem isOpen (h : s.Follows s') : s'.isOpen = s.isOpen := by rw [h.rest]

end Preview.Follows

namespace Duty

def IsWatch : Duty → Prop
  | .watch .. => True
  | _ => False

variable {d : Duty} {val : CellId → Signal} {v : Signal} {s s' : Preview}

theorem Acts.follows (h : d.Acts val s s') : s.Follows s' := by
  cases d with
  | store key =>
    obtain rfl : s' = s := h
    exact .refl s'
  | followUrl a =>
    obtain rfl : s' = { s with page := s.page.withArguments (val a).asArguments } := h
    exact .withArguments _ _
  | followAddress r =>
    obtain rfl : s' = s.ledTo (r.address val) r.origin := h
    exact .ledTo _ _ _
  | watch name view theme scripts =>
    rcases (h : s' = s ∨ ∃ sight, s' = { s with page := s.page.note (.watched name sight) }) with
      rfl | ⟨sight, rfl⟩
    · exact .refl s'
    · exact ⟨rfl, .note .refl fun _ => rfl⟩

theorem Hears.page (h : d.Hears v s s') :
    s' = s ∨ ∃ key text, s' = { s with page := (s.page.store key text).2 } := by
  cases d with
  | store key => exact .inr ⟨key, _, h⟩
  | _ => exact .inl h

theorem Hears.follows (h : d.Hears v s s') : s.Follows s' := by
  rcases h.page with rfl | ⟨key, text, rfl⟩
  · exact .refl s'
  · exact ⟨rfl, .store .refl key text⟩

theorem Hears.location (h : d.Hears v s s') : s'.page.location = s.page.location := by
  rcases h.page with rfl | ⟨key, text, rfl⟩ <;> simp

theorem Hears.sourceOf (h : d.Hears v s s') (f : FrameId) :
    s'.page.sourceOf f = s.page.sourceOf f ∧ s'.address = s.address := by
  rcases h.page with rfl | ⟨key, text, rfl⟩
  · exact ⟨rfl, rfl⟩
  · exact ⟨Page.sourceOf_congr (by simp) f, rfl⟩

theorem IsWatch.location (hd : d.IsWatch) (h : d.Acts val s s') :
    s'.page.location = s.page.location := by
  cases d with
  | watch name view theme scripts =>
    rcases (h : s' = s ∨ ∃ sight, s' = { s with page := s.page.note (.watched name sight) }) with
      rfl | ⟨sight, rfl⟩ <;> rfl
  | _ => exact hd.elim

theorem IsWatch.sourceOf (hd : d.IsWatch) (h : d.Acts val s s') (f : FrameId) :
    s'.page.sourceOf f = s.page.sourceOf f ∧ s'.address = s.address := by
  cases d with
  | watch name view theme scripts =>
    rcases (h : s' = s ∨ ∃ sight, s' = { s with page := s.page.note (.watched name sight) }) with
      rfl | ⟨sight, rfl⟩ <;> exact ⟨rfl, rfl⟩
  | _ => exact hd.elim

end Duty

namespace Preview
variable {s : Preview} {a : Address} {origin : String}

theorem ledTo_address : (s.ledTo a origin).address = some a := by
  unfold Preview.ledTo
  split <;> rfl

theorem ledTo_location : (s.ledTo a origin).page.location = s.page.location := by
  unfold Preview.ledTo
  split
  · rfl
  · dsimp only
    exact Page.ledTo_location _ _ _ _

theorem leads_ledTo (hs : s.page.allowance .setSrc = none) {f : FrameId}
    (hm : s.session.managed = some f) (hf : f < s.page.frames.length) :
    (s.ledTo a s.page.origin).page.Leads f a := by
  simp only [Preview.ledTo, hm]
  exact Page.leads_ledTo hs hf a

end Preview

theorem Reactive.Graph.Runs.unique {B V W : Type} {g : Graph B V W} {e : EffectId} {b b' : B}
    (h : g.Runs e b) (h' : g.Runs e b') : b = b' := by
  obtain ⟨x, hx, -, rfl⟩ := h
  obtain ⟨y, hy, -, rfl⟩ := h'
  rw [Option.some.inj (hx.symm.trans hy)]

theorem Reactive.Graph.Runs.lt {B V W : Type} {g : Graph B V W} {e : EffectId} {b : B}
    (h : g.Runs e b) : e < g.effects.length := by
  obtain ⟨x, hx, -⟩ := h
  exact (List.getElem?_eq_some_iff.1 hx).1

namespace App.Desk

def route (d : Desk) (story : BoundStory) (origin : String) : Route :=
  ⟨d.app.controller.settings.contentPrefix, story.component, story.key, story.mode, origin,
    d.app.theme.cell, story.arguments⟩

structure Rigged (d : Desk) (g : System) : Prop where
  wired : App.calm.Wired none g
  scopes : g.scopes = []
  controller : d.app.controller.theme = d.app.theme.cell
  toolbar : d.app.toolbar.theme = d.app.theme.cell
  theme : d.app.theme.cell < g.cells.length
  scripts : d.app.toolbar.scripts < g.cells.length
  writer : ∃ y b, g.listeners[d.app.theme.writer]? = some y ∧ y.reaction = .call b
  kept : ∀ {name : String} {c : CellId}, d.kept.get? name = some c → c < g.cells.length
  watchers : ∀ {name : String} {e : EffectId}, (name, e) ∈ d.watchers →
    e < g.effects.length ∧ ∀ duty, g.Runs e duty → duty.IsWatch

/-- What a desk relies on in the state of the preview. A cycle that is kept is not newer than the
generation, and only one can be of that generation; it has a frame, and nothing is bound yet. -/
structure Attended (φ : Aspect → Prop) (d : Desk) (s : Preview) : Prop where
  distinct : d.cycles.keys.Nodup
  cycles : ∃ last, ∀ {name : String} {c : Controller.Cycle}, d.cycles.get? name = some c →
    c.token.issued ≤ s.generation.current ∧
      (c.token.issued = s.generation.current →
        name = last ∧ s.bindings = none ∧ (φ .session → ∃ f, s.session.managed = some f))
  location : φ .location → s.page.Located
  frames : φ .frames → s.page.Framed ∧ ∀ f, s.session.managed = some f → f < s.page.frames.length
  status : s.isOpen = true → s.status = .bound → s.bindings ≠ none

structure Free (g : System) : Prop where
  bindings : g.world.bindings = none
  bound : g.world.bound = none
  address : g.world.address = none
  live : ∀ {e : EffectId} {duty : Duty}, g.Runs e duty → duty.IsWatch

/-- A story is bound; its two effects run, and apart from them only watchers. The current address is
that of the story with the arguments and the theme as they are, the location has the arguments, and
the managed frame has a source that leads to the address. -/
structure Bound (φ : Aspect → Prop) (d : Desk) (g : System) (b : Bindings) (story : BoundStory) :
    Prop where
  bindings : g.world.bindings = some b
  bound : g.world.bound = some story
  url : g.Runs b.url (.followUrl story.arguments)
  address : g.Runs b.address (.followAddress (d.route story g.world.page.origin))
  live : ∀ {e : EffectId} {duty : Duty}, g.Runs e duty → duty.IsWatch ∨ e = b.url ∨ e = b.address
  current : g.world.address = some ((d.route story g.world.page.origin).address g.value)
  located : φ .location → g.world.page.Has (g.value story.arguments).asArguments
  framed : φ .frames → ∀ f, g.world.session.managed = some f →
    g.world.page.Leads f ((d.route story g.world.page.origin).address g.value)
  managed : φ .session → ∃ f, g.world.session.managed = some f

structure Sound (φ : Aspect → Prop) (d : Desk) (g : System) : Prop where
  rigged : d.Rigged g
  attended : d.Attended φ g.world
  standing : Free g ∨ ∃ b story, d.Bound φ g b story

variable {φ : Aspect → Prop} {d : Desk} {g g' : System}

/-- A desk stays rigged when its cells, listeners and effects stay. -/
theorem Rigged.of (h : d.Rigged g) (wired : App.calm.Wired none g') (scopes : g'.scopes = g.scopes)
    (cells : g.cells.length ≤ g'.cells.length)
    (reaction : ∀ {l : ListenerId} {y : Listener Duty}, g.listeners[l]? = some y →
      ∃ y', g'.listeners[l]? = some y' ∧ y'.reaction = y.reaction)
    (effects : g.effects.length ≤ g'.effects.length)
    (runs : ∀ {e : EffectId} {duty : Duty}, e < g.effects.length → g'.Runs e duty → g.Runs e duty) :
    d.Rigged g' where
  wired := wired
  scopes := scopes.trans h.scopes
  controller := h.controller
  toolbar := h.toolbar
  theme := Nat.lt_of_lt_of_le h.theme cells
  scripts := Nat.lt_of_lt_of_le h.scripts cells
  writer := by
    obtain ⟨y, b, hy, hb⟩ := h.writer
    obtain ⟨y', hy', hr⟩ := reaction hy
    exact ⟨y', b, hy', hr.trans hb⟩
  kept := fun hk => Nat.lt_of_lt_of_le (h.kept hk) cells
  watchers := by
    intro name e he
    obtain ⟨hlt, hw⟩ := h.watchers he
    exact ⟨Nat.lt_of_lt_of_le hlt effects, fun duty hr => hw duty (runs hlt hr)⟩

theorem Rigged.kin (h : d.Rigged g) (wired : App.calm.Wired none g') (kin : g.Kin g')
    (cells : g'.cells.length = g.cells.length) : d.Rigged g' :=
  h.of wired kin.scopes (Nat.le_of_eq cells.symm) kin.reaction (Nat.le_of_eq kin.length_eq.symm)
    fun _ hr => kin.runs_iff.1 hr

theorem Rigged.same (h : d.Rigged g) (parts : g.SameParts g') (scopes : g'.scopes = g.scopes) :
    d.Rigged g' :=
  h.kin (parts.wired h.wired) (parts.kin scopes) (by rw [parts.cells])

theorem Attended.follows {s s' : Preview} (h : d.Attended φ s) (hf : s.Follows s') :
    d.Attended φ s' where
  distinct := h.distinct
  cycles := by rw [hf.generation, hf.bindings, hf.session]; exact h.cycles
  location := fun hl => (h.location hl).reaches hf.page
  frames := by
    intro hl
    obtain ⟨framed, managed⟩ := h.frames hl
    rw [hf.session, hf.page.setting.frames]
    exact ⟨framed.reaches hf.page, managed⟩
  status := by rw [hf.isOpen, hf.status, hf.bindings]; exact h.status

theorem Bound.fits {b : Bindings} {story : BoundStory} (h : d.Bound φ g b story) (hr : d.Rigged g) :
    story.arguments < g.cells.length := by
  obtain ⟨x, hx, hd, hb⟩ := h.url
  exact hr.wired.known hx hd (by rw [hb]; exact List.mem_singleton_self _)

theorem Sound.fits (h : d.Sound φ g) : g.world.Fits g.cells.length := by
  intro story hs
  rcases h.standing with free | ⟨b, story', bound⟩
  · rw [free.bound] at hs
    cases hs
  · obtain rfl := Option.some.inj (bound.bound.symm.trans hs)
    exact bound.fits h.rigged

end App.Desk
end StoryPreview
