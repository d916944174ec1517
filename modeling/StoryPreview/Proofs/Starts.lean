import StoryPreview.Proofs.Cycles
import StoryPreview.Proofs.OrderedMap
/-!
Cycles that start and cycles that are resumed. A start makes every cycle that is kept older than the
latest generation and gives up what is bound; only then it looks at the page.
-/
namespace StoryPreview
open Reactive Program

theorem Generation.isCurrent_iff {x : Generation} {t : Token} :
    x.isCurrent t = true ↔ t.issued = x.current := by
  rw [Generation.isCurrent, beq_iff_eq]
  exact eq_comm

theorem Generation.isCurrent_false_iff {x : Generation} {t : Token} :
    x.isCurrent t = false ↔ t.issued ≠ x.current := by
  rw [← Bool.not_eq_true, Generation.isCurrent_iff]

theorem Session.manage_managed {F : Type} [DecidableEq F] (s : Session F) (f : F) :
    (s.manage (some f)).managed = some f := by
  by_cases h : s.isManaged f = true
  · simpa [Session.manage, h] using beq_iff_eq.1 h
  · simp [Session.manage, h]

namespace Preview

def cleared (s : Preview) (status : Status) : Preview :=
  { s with
    generation := s.generation.invalidate, bindings := none, bound := none, address := none,
      status := status }

def begun (s : Preview) (frame : FrameId) (path : String) : Preview :=
  { s.cleared .loading with
    session := s.session.manage (some frame), page := s.page.note (.imported path) }

end Preview

namespace App.Desk
variable {φ ψ : Aspect → Prop} {d : Desk} {g g' : System}

def without (d : Desk) (name : String) : Desk := { d with cycles := d.cycles.erase name }

theorem Rigged.withCycles (h : d.Rigged g) (cycles : Entries Controller.Cycle) :
    { d with cycles := cycles }.Rigged g :=
  ⟨h.wired, h.scopes, h.controller, h.toolbar, h.theme, h.scripts, h.writer, h.kept, h.watchers⟩

/-- A desk may have other cycles than another, if they are in order. -/
theorem Sound.withCycles (h : d.Sound φ g) {cycles : Entries Controller.Cycle}
    (distinct : cycles.keys.Nodup)
    (ordered : ∃ last, ∀ {name : String} {c : Controller.Cycle}, cycles.get? name = some c →
      c.token.issued ≤ g.world.generation.current ∧
        (c.token.issued = g.world.generation.current →
          name = last ∧ g.world.bindings = none ∧
          (φ .session → ∃ f, g.world.session.managed = some f))) :
    { d with cycles := cycles }.Sound φ g where
  rigged := h.rigged.withCycles cycles
  attended := ⟨distinct, ordered, h.attended.location, h.attended.frames, h.attended.status⟩
  standing := h.standing.imp id fun ⟨b, story, bound⟩ =>
    ⟨b, story, bound.bindings, bound.bound, bound.url, bound.address, bound.live, bound.current,
      bound.located, bound.framed, bound.managed⟩

theorem Sound.without (h : d.Sound φ g) (name : String) : (d.without name).Sound φ g := by
  have attended := h.attended
  obtain ⟨last, ordered⟩ := attended.cycles
  exact h.withCycles (Entries.keys_erase_nodup attended.distinct name)
    ⟨last, fun hc => ordered (Entries.get?_of_erase attended.distinct hc).2⟩

theorem Underway.keep (h : d.Underway φ g) (hm : φ .session → ∃ f, g.world.session.managed = some f)
    {c : Controller.Cycle} (hc : g.world.generation.isCurrent c.token = true) (name : String) :
    { d with cycles := d.cycles.insert name c }.Sound φ g := by
  refine h.sound.withCycles (Entries.nodup_insert h.distinct name c) ⟨name, fun {name' c'} hk => ?_⟩
  rw [Entries.get?_insert] at hk
  split at hk
  · rename_i heq
    obtain rfl := Option.some.inj hk
    exact ⟨Nat.le_of_eq (Generation.isCurrent_iff.1 hc), fun _ => ⟨heq.symm, h.free.bindings, hm⟩⟩
  · exact ⟨Nat.le_of_lt (h.older hk), fun he => absurd he (Nat.ne_of_lt (h.older hk))⟩

/-- What stands on a desk does so whatever the generation is, and whether the preview is open or
not. -/
theorem Sound.standing_aside (h : d.Sound φ g) (generation : Generation) (isOpen : Bool) :
    Free (g.withWorld { g.world with generation := generation, isOpen := isOpen }) ∨ ∃ b story,
      d.Bound φ (g.withWorld { g.world with generation := generation, isOpen := isOpen }) b
        story := by
  refine h.standing.imp (fun free => ⟨free.bindings, free.bound, free.address, free.live⟩) ?_
  rintro ⟨b, story, bound⟩
  refine ⟨b, story, ?_⟩
  exact bound.transfer (fun _ => id) (Graph.SameParts.kin ⟨rfl, rfl, rfl⟩ rfl) rfl rfl rfl rfl rfl
    (fun _ => rfl) (fun _ => ⟨rfl, fun _ => rfl⟩) (fun _ => id) fun _ => rfl

/-- A generation that starts leaves a sound desk sound, and each cycle that is kept is older. -/
theorem Sound.invalidate (h : d.Sound φ g) :
    d.Sound φ (g.withWorld { g.world with generation := g.world.generation.invalidate }) ∧
      ∀ {name : String} {c : Controller.Cycle}, d.cycles.get? name = some c →
        c.token.issued < g.world.generation.invalidate.current := by
  obtain ⟨last, ordered⟩ := h.attended.cycles
  have older {name : String} {c : Controller.Cycle} (hc : d.cycles.get? name = some c) :
      c.token.issued < g.world.generation.invalidate.current := Nat.lt_succ_of_le (ordered hc).1
  refine ⟨⟨h.rigged.same ⟨rfl, rfl, rfl⟩ rfl,
    ⟨h.attended.distinct, ⟨"", fun hc => ?_⟩, h.attended.location, h.attended.frames,
      h.attended.status⟩, h.standing_aside _ g.world.isOpen⟩, older⟩
  exact ⟨Nat.le_of_lt (older hc), fun he => absurd he (Nat.ne_of_lt (older hc))⟩

/-- Nothing is bound after what is bound was given up, and the status can be any other than
bound. -/
theorem Sound.clear (h : d.Sound φ g) {k : System} (parts : g.SameParts k)
    (scopes : k.scopes = g.scopes)
    (world : k.world = { g.world with generation := g.world.generation.invalidate })
    (status : Status) (hs : status ≠ .bound) : Controller.unbind.Done k fun _ g' =>
      d.Underway φ (g'.withWorld { g'.world with status := status }) ∧ g'.cells = g.cells ∧
        g'.world = { g.world with
          generation := g.world.generation.invalidate, bindings := none, bound := none,
              address := none } := by
  obtain ⟨sound, older⟩ := h.invalidate
  have soundk : d.Sound φ k :=
    (sound_congr (g := g.withWorld { g.world with generation := g.world.generation.invalidate })
      ⟨parts.cells, parts.listeners, parts.effects⟩ scopes world).2 sound
  refine soundk.unbind.imp ?_
  rintro _ g' ⟨rigged, free, cells, world'⟩
  rw [world] at world'
  refine ⟨⟨rigged.same ⟨rfl, rfl, rfl⟩ rfl, ⟨free.bindings, free.bound, free.address, free.live⟩,
    h.attended.distinct, fun hc => ?_, fun hl => ?_, fun hl => ?_, fun _ => hs⟩,
    cells.trans parts.cells, world'⟩
  · simp only [Graph.withWorld_world, world']
    exact older hc
  · simp only [Graph.withWorld_world, world']
    exact h.attended.location hl
  · simp only [Graph.withWorld_world, world']
    exact h.attended.frames hl

inductive Started (φ : Aspect → Prop) (d : Desk) (g : System) : Controller.Progress → System → Prop
  | refused {o : Controller.Outcome} {g' : System}
    (plan : Controller.planned d.app.controller.settings g.world.page g.world.generation.advance.1 =
      .error o)
    (ho : o ≠ .bound) (underway : d.Underway φ g')
    (generation : g'.world.generation = g.world.generation.invalidate)
    (page : g.world.page.Reaches g'.world.page) : Started φ d g (.ended o) g'
  | begun {cycle : Controller.Cycle} {frame : FrameId} {k g' : System} {p : Controller.Progress}
    (plan : Controller.planned d.app.controller.settings g.world.page g.world.generation.advance.1 =
      .ok cycle)
    (token : cycle.token = g.world.generation.advance.1) (underway : d.Underway φ k)
    (values : k.value = g.value) (length : k.cells.length = g.cells.length)
    (world : k.world = g.world.begun frame cycle.path) (goes : d.Goes φ cycle k p g') :
      Started φ d g p g'

theorem Underway.manage (h : d.Underway φ g) {frame : FrameId}
    (hf : φ .frames → frame < g.world.page.frames.length) :
    (Controller.manage (some frame)).Done g fun _ g' => d.Underway φ g' ∧ g'.cells = g.cells ∧
      g'.world = { g.world with session := g.world.session.manage (some frame) } := by
  simp only [Controller.manage, Action.Done, ends_bind, Action.ends_state, Action.ends_sayAll,
    Action.ends_update]
  refine ⟨?_, by simp, by simp⟩
  refine (h.reports (.recordAll g [g.world.session.manageNote (some frame)])).update
    ⟨rfl, rfl, rfl⟩ rfl ?_ ?_ ?_
    ?_ ?_ ?_ ?_ <;> simp only [Graph.withWorld_world, Graph.recordAll_world]
  · exact h.free.bindings
  · exact h.free.bound
  · exact h.free.address
  · exact .refl
  · intro hl f hm
    rw [Session.manage_managed] at hm
    exact Option.some.inj hm ▸ hf hl
  · exact h.status

/-- A cycle takes its configuration: it ends, or it goes on to wait for its module. -/
theorem Underway.begin (h : d.Underway φ g)
    (hm : φ .session → ∃ f, g.world.session.managed = some f) {token : Token}
    (hc : g.world.generation.isCurrent token = true) (config : Config) :
    (d.app.controller.begin token config).Done g fun p g' =>
      (∃ o, Controller.cycleOf d.app.controller.settings token config = .error o ∧ p = .ended o ∧
        o ≠ .bound ∧ d.Underway φ g' ∧ g'.world.generation = g.world.generation ∧
        g.world.page.Reaches g'.world.page) ∨
      ∃ cycle k, Controller.cycleOf d.app.controller.settings token config = .ok cycle ∧
      cycle.token = token ∧
        d.Underway φ k ∧ k.value = g.value ∧ k.cells.length = g.cells.length ∧
        k.world = { g.world with page := g.world.page.note (.imported cycle.path) } ∧
        d.Goes φ cycle k p g' := by
  have idle (e : Event Signal) : d.Underway φ
      ((g.record e).withWorld { g.world with status := .idle }) :=
    (h.reports (.record g e)).act .idle .refl (by simp)
  unfold Controller.begin Controller.cycleOf
  split
  · simp only [Controller.setStatus, Action.Done, ends_bind, Action.ends_say, Action.ends_update,
      ends_pure]
    exact .inl ⟨_, by simp only [*], rfl, by simp, idle _, rfl, .refl⟩
  · simp only [Controller.setStatus, Action.Done, ends_bind, Action.ends_say, Action.ends_update,
      ends_pure]
    exact .inl ⟨_, by simp only [*], rfl, by simp, idle _, rfl, .refl⟩
  · simp only [Action.Done, ends_bind]
    refine (h.fail d.app.controller.settings _).imp ?_
    rintro o g' ⟨ho, underway, generation, page⟩
    rw [ends_pure, ho]
    exact .inl ⟨_, by simp only [*], rfl, by simp, underway, generation, page⟩
  · rename_i component path key _ _ _
    simp only [Loader.start, Action.Done, ends_bind, Action.ends_say, Action.ends_note]
    generalize hk : Graph.withWorld (g.record _) _ = k
    have underway : d.Underway φ k := by
      rw [← hk]
      exact h.update ⟨rfl, rfl, rfl⟩ rfl h.free.bindings h.free.bound h.free.address rfl
        (.note .refl fun _ => rfl) (fun hl => (h.frames hl).2) h.status
    have world : k.world = { g.world with page := g.world.page.note (.imported path) } := by
      rw [← hk]
      rfl
    refine (underway.advance (by rwa [world]) (by rwa [world])).imp fun p g' goes =>
      .inr ⟨⟨token, component, path, key, _⟩, k, by simp only [*], rfl, underway, ?_, ?_,
        world, goes⟩
    · rw [← hk]
      rfl
    · rw [← hk]
      rfl

/-- A new cycle goes on from what it has cleared. -/
theorem Sound.runCycle (h : d.Sound φ g) {k : System} (parts : g.SameParts k)
    (scopes : k.scopes = g.scopes)
    (world : k.world = { g.world with generation := g.world.generation.invalidate }) :
    (d.app.controller.run g.world.generation.advance.1).Done k (d.Started φ g) := by
  simp only [Controller.run, Action.Done, ends_bind, Action.ends_say]
  refine (h.clear (k := k.record _) ⟨parts.cells, parts.listeners, parts.effects⟩ scopes world
    Status.loading (by simp)).imp ?_
  rintro _ g₁ ⟨underway, cells, world₁⟩
  simp only [Controller.setStatus, Action.ends_update, Action.ends_state, Graph.withWorld_world]
  have page : g₁.world.page = g.world.page := by rw [world₁]
  have generation : g₁.world.generation = g.world.generation.invalidate := by rw [world₁]
  have placed {frame : FrameId} (hf : g₁.world.page.frameIds.get?
      d.app.controller.settings.frameId = some frame)
      (hl : φ .frames) : frame < g₁.world.page.frames.length := by
    rw [page] at hf ⊢
    exact (h.attended.frames hl).1.placed (Entries.mem_of_get? hf)
  -- What has been cleared has the page of before, so the plan that is followed from here is the one
  -- for that page.
  cases hf : g₁.world.page.frameIds.get? d.app.controller.settings.frameId with
  | none =>
    simp only [ends_bind, Action.ends_say, Action.ends_update, ends_pure]
    refine .refused (by simp only [Controller.planned, ← page, hf]) (by simp) ?_ generation ?_
    · exact (underway.reports (.record _ _)).act .failed .refl (by simp)
    · simp only [Graph.withWorld_world, Graph.record_world, page]
      exact .refl
  | some frame =>
    refine ends_bind.2 ((underway.manage (placed hf)).imp ?_)
    rintro _ g₂ ⟨underway₂, cells₂, world₂⟩
    simp only [ends_bind, Action.ends_state, Action.ends_sayAll]
    have page₂ : g₂.world.page = g.world.page := by
      rw [world₂]
      exact page
    have generation₂ : g₂.world.generation = g.world.generation.invalidate := by
      rw [world₂]
      exact generation
    have underway₃ := underway₂.reports
      (.recordAll g₂ (Controller.configNotes d.app.controller.settings g₂.world.page))
    rw [page₂] at underway₃ ⊢
    have hf' : g.world.page.frameIds.get? d.app.controller.settings.frameId = some frame :=
      page ▸ hf
    have world₃ :
        (g₂.recordAll (Controller.configNotes d.app.controller.settings g.world.page)).world =
        g₂.world :=
      Graph.recordAll_world _ _
    cases hc : Controller.config d.app.controller.settings g.world.page with
    | error problem =>
      simp only [ends_bind]
      refine (underway₃.fail d.app.controller.settings problem).imp ?_
      rintro o g' ⟨ho, underway', generation', page'⟩
      rw [ends_pure, ho]
      rw [world₃, generation₂] at generation'
      rw [world₃, page₂] at page'
      exact .refused (by simp only [Controller.planned, hf', hc])
        (by simp) underway' generation' page'
    | ok config =>
      have plan : Controller.planned d.app.controller.settings g.world.page
          g.world.generation.advance.1 =
          Controller.cycleOf d.app.controller.settings g.world.generation.advance.1 config := by
        simp only [Controller.planned, hf', hc]
      refine (underway₃.begin (fun _ => ⟨frame, ?_⟩) ?_ config).imp fun p g' post => ?_
      · rw [world₃, world₂]
        exact Session.manage_managed _ _
      · rw [world₃, generation₂]
        exact Generation.isCurrent_iff.2 rfl
      · rcases post with ⟨o, hp, rfl, ho, underway', generation', page'⟩ |
          ⟨cycle, k', hp, token, underway', values, length, world', goes⟩
        · rw [world₃, generation₂] at generation'
          rw [world₃, page₂] at page'
          exact .refused (plan.trans hp) ho underway' generation' page'
        · have cells₃ :
              (g₂.recordAll (Controller.configNotes d.app.controller.settings g.world.page)).cells =
              g.cells := by
            rw [Graph.recordAll_cells, cells₂]
            exact cells
          have began : k'.world = g.world.begun frame cycle.path := by
            rw [world', world₃, world₂]
            simp only [Graph.withWorld_world, world₁]
            rfl
          exact .begun (plan.trans hp) token underway' (values.trans (Graph.value_congr cells₃))
            (length.trans (congrArg List.length cells₃)) began goes

theorem Goes.sound {cycle : Controller.Cycle} {p : Controller.Progress} (h : d.Goes φ cycle g p g')
    (hu : d.Underway φ g) : d.Sound φ g' := by
  cases h with
  | held h reports => exact (hu.reports reports).sound
  | failed h loaded underway generation page => exact underway.sound
  | bound h loaded sound binds => exact sound

theorem Started.reports {p : Controller.Progress} {k : System} (h : d.Started φ g p k)
    (hr : k.Reports g') : d.Started φ g p g' := by
  cases h with
  | refused plan ho underway generation page =>
    exact .refused plan ho (underway.reports hr) (by rw [hr.world, generation]) (by rwa [hr.world])
  | begun plan token underway values length world goes =>
    exact .begun plan token underway values length world (goes.around (.refl _) hr)

theorem Sound.start (h : d.Sound φ g) : d.app.controller.start.Done g (d.Started φ g) := by
  simp only [Controller.start, Action.Done, ends_bind, Action.ends_state, Action.ends_update,
    Action.ends_inSpan]
  exact (h.runCycle
    (k := (g.withWorld { g.world with generation := g.world.generation.invalidate }).withSpan _)
    ⟨rfl, rfl, rfl⟩ rfl rfl).imp fun p g' started => started.reports (.withSpan g' none)

theorem Started.sound {p : Controller.Progress} (h : d.Started φ g p g') : d.Sound φ g' := by
  cases h with
  | refused plan ho underway generation page => exact underway.sound
  | begun plan token underway values length world goes => exact goes.sound underway

theorem Started.onward {p : Controller.Progress} (h : d.Started φ g p g') :
    g'.world.generation = g.world.generation.invalidate ∧ g.world.page.Reaches g'.world.page := by
  cases h with
  | refused plan ho underway generation page => exact ⟨generation, page⟩
  | begun plan token underway values length world goes =>
    obtain ⟨generation, page⟩ := goes.onward
    rw [world] at generation page
    exact ⟨generation, (Page.Reaches.note .refl fun _ => rfl).trans page⟩

/-- The desk with what a start leads to, kept under a name if it waits. -/
theorem Started.kept {p : Controller.Progress} (h : d.Started φ g p g') (name : String) :
    (d.ofProgress name p).2.Sound φ g' := by
  cases p with
  | ended o => exact h.sound.without name
  | pending c =>
    cases h with
    | begun plan token underway values length world goes =>
      cases goes with
      | held held reports =>
        refine (underway.reports reports).keep (fun _ => ?_) ?_ name
        · rw [reports.world, world]
          exact ⟨_, Session.manage_managed _ _⟩
        · rw [reports.world, world, token]
          exact Generation.isCurrent_iff.2 rfl

theorem Sound.underway (h : d.Sound φ g) {name : String} {c : Controller.Cycle}
    (hc : d.cycles.get? name = some c) (current : g.world.generation.isCurrent c.token = true) :
    (d.without name).Underway φ g ∧ (φ .session → ∃ f, g.world.session.managed = some f) := by
  have attended := h.attended
  obtain ⟨last, ordered⟩ := attended.cycles
  obtain ⟨rfl, bindings, managed⟩ := (ordered hc).2 (Generation.isCurrent_iff.1 current)
  have free : Free g := by
    rcases h.standing with free | ⟨b, story, bound⟩
    · exact free
    · rw [bound.bindings] at bindings
      cases bindings
  refine ⟨⟨h.rigged.withCycles _, free, Entries.keys_erase_nodup attended.distinct _, fun hk => ?_,
    attended.location, attended.frames, fun ho hs => attended.status ho hs bindings⟩, managed⟩
  obtain ⟨hne, hk⟩ := Entries.get?_of_erase attended.distinct hk
  exact Nat.lt_of_le_of_ne (ordered hk).1 fun he => hne ((ordered hk).2 he).1

inductive Resumed (φ : Aspect → Prop) (d : Desk) (name : String) (c : Controller.Cycle)
    (g : System) : Controller.Progress → System → Prop
  | stale {p : Controller.Progress} {g' : System} (h : g.world.generation.isCurrent c.token = false)
    (hp : p = if c.path ∈ g.world.page.held then .pending c else .ended .stale)
      (reports : g.Reports g') :
    Resumed φ d name c g p g'
  | current {p : Controller.Progress} {g' : System}
    (h : g.world.generation.isCurrent c.token = true)
    (underway : (d.without name).Underway φ g) (managed : φ .session →
      ∃ f, g.world.session.managed = some f)
    (goes : (d.without name).Goes φ c g p g') : Resumed φ d name c g p g'

theorem resume_stale (app : Controller) {c : Controller.Cycle}
    (h : g.world.generation.isCurrent c.token = false) :
    (app.resume c).Done g fun p g' => g.Reports g' ∧
      p = if c.path ∈ g.world.page.held then .pending c else .ended .stale := by
  simp only [Controller.resume, Action.Done, Action.ends_inSpan]
  refine (advance_stale (g := g.withSpan (some (.cycle c.token.issued))) app h).imp ?_
  rintro p g' ⟨reports, hp⟩
  exact ⟨(Graph.Reports.withSpan g _).trans (reports.trans (.withSpan g' none)), hp⟩

theorem Sound.resume (h : d.Sound φ g) {name : String} {c : Controller.Cycle}
    (hc : d.cycles.get? name = some c) :
    (d.app.controller.resume c).Done g (d.Resumed φ name c g) := by
  cases current : g.world.generation.isCurrent c.token with
  | false =>
    refine (resume_stale _ current).imp ?_
    rintro p g' ⟨reports, hp⟩
    exact .stale current hp reports
  | true =>
    obtain ⟨underway, managed⟩ := h.underway hc current
    simp only [Controller.resume, Action.Done, Action.ends_inSpan]
    have spanned := underway.reports (.withSpan g (some (.cycle c.token.issued)))
    exact (spanned.advance managed current).imp fun p g' goes =>
      .current current underway managed (goes.around (.withSpan g _) (.withSpan g' none))

theorem Resumed.kept {name : String} {c : Controller.Cycle} {p : Controller.Progress}
    (h : d.Resumed φ name c g p g') (sound : d.Sound φ g) (hc : d.cycles.get? name = some c) :
    (d.ofProgress name p).2.Sound φ g' := by
  have same : { d with cycles := d.cycles.insert name c } = d := by rw [Entries.insert_self hc]
  cases h with
  | stale stale hp reports =>
    have sound' : d.Sound φ g' := (sound_congr reports.parts reports.scopes reports.world).2 sound
    split at hp
    · rw [hp, ofProgress, same]
      exact sound'
    · rw [hp, ofProgress]
      exact sound'.without name
  | current current underway managed goes =>
    cases goes with
    | held held reports =>
      rw [ofProgress, same]
      exact (sound_congr reports.parts reports.scopes reports.world).2 sound
    | failed held loaded failed generation page => exact failed.sound
    | bound held loaded bound binds => exact bound

theorem Resumed.onward {name : String} {c : Controller.Cycle} {p : Controller.Progress}
    (h : d.Resumed φ name c g p g') :
    g'.world.generation = g.world.generation ∧ g.world.page.Reaches g'.world.page := by
  cases h with
  | stale stale hp reports =>
    rw [reports.world]
    exact ⟨rfl, .refl⟩
  | current current underway managed goes => exact goes.onward

/-- A cycle that still waits is the one that was resumed. -/
theorem Resumed.pending {name : String} {c c' : Controller.Cycle} {p : Controller.Progress}
    (h : d.Resumed φ name c g p g') (hp : p = .pending c') : c = c' := by
  cases h with
  | stale stale hp' reports =>
    rw [hp] at hp'
    split at hp'
    · exact (Controller.Progress.pending.inj hp').symm
    · cases hp'
  | current current underway managed goes =>
    subst hp
    cases goes with
    | held held reports => rfl

end App.Desk
end StoryPreview
