import StoryPreview.Proofs.Supersession
import StoryPreview.Proofs.Uses
/-!
Who attends to what. In every run, between two steps, the status, the bound story, its effects and
the current address go together; while a story is bound, its arguments have two listeners of the
controller and the theme has one; and no other cell ever has any. So nothing that happens to other
cells reaches the page.
-/
namespace StoryPreview
open Reactive Program

theorem Signal.Kind.theme_of_parse {s : String} {v : Signal}
    (h : Signal.Kind.theme.parse s = .ok v) : ∃ t, v = .theme t := by
  simp only [Signal.Kind.parse, Json.readAll] at h
  split at h
  · cases h
  · rename_i x c hread
    simp only [Signal.Kind.read] at hread
    cases ht : Theme.read Json.depthLimit (Json.Cursor.start s) with
    | error stop =>
      rw [ht] at hread
      cases hread
    | ok r =>
      rw [ht] at hread
      cases hread
      split at h
      · cases h
        exact ⟨r.1, rfl⟩
      · cases h

namespace App.Desk
variable {φ : Aspect → Prop} {d : Desk} {g g' : System}

theorem read_theme_done (key : String) : (Stored.read? .theme key).Done g fun r _ =>
    ∀ v ∈ r, ∃ t, v = .theme t := by
  refine Stored.readWith?_ends.imp ?_
  rintro _ _ ⟨rfl, -⟩ v hv
  obtain ⟨text, read⟩ := Stored.readFrom_eq_some hv
  exact Signal.Kind.theme_of_parse (Signal.Kind.format_read.1 read)

theorem opened_tuned (p : Page) (s : Settings) : (opened s).Done p.blank fun d g => d.Tuned g := by
  simp only [opened, App.create, Stored.create, Stored.createWith, Toolbar.create, Action.Done,
    ends_bind]
  refine ((read_done _ _).and (read_theme_done _)).imp ?_
  rintro first g₁ ⟨⟨parts₁, -, storage, world₁⟩, theme⟩
  refine Stored.write_ends.imp ?_
  rintro _ g₂ ⟨parts₂, -, world₂⟩
  simp only [ends_create, ends_subscribe, ends_done, ends_pure]
  have cells : g₂.cells = [] := parts₂.cells.trans parts₁.cells
  have listeners : g₂.listeners = [] := parts₂.listeners.trans parts₁.listeners
  have world : g₂.world = { page := g₂.world.page } := by
    rw [world₂, world₁]
    rfl
  obtain ⟨t, ht⟩ : ∃ t, first.getD (.theme s.defaultTheme) = .theme t := by
    cases first with
    | none => exact ⟨_, rfl⟩
    | some v => exact theme v rfl
  have nobody {l : ListenerId} {y : Listener Duty} (hy : g₂.listeners[l]? = some y) : False := by
    simp [listeners] at hy
  have neat : g₂.Neat := ⟨fun hy => (nobody hy).elim, fun hy => (nobody hy).elim⟩
  have loose : g₂.Loose := fun l => by simp [Graph.pinsOf, listeners]
  refine ⟨⟨?_, fun l => ?_, ⟨t, ?_⟩, ⟨true, ?_⟩⟩, fun hb => ?_, fun hc => ?_, ?_,
    fun hk => by cases hk⟩
  · exact (Graph.Neat.subscribe (neat.congr rfl rfl) g₂.cells.length _).congr rfl rfl
  · exact (congrFun (Graph.pinsOf_subscribe (g := (g₂.addCell _).2) g₂.cells.length _) l).trans
      (loose l)
  · simp [Graph.value, Graph.addCell, Graph.subscribe, cells, ht]
  · simp [Graph.value, Graph.addCell, Graph.subscribe, cells]
  · have none : g₂.world.bindings = none := by rw [world]
    exact absurd (none.symm.trans hb) (by simp)
  · have opened : g₂.world.isOpen = true := by rw [world]
    exact absurd (opened.symm.trans hc) (by simp)
  · simp [Graph.addCell, Graph.subscribe, cells]

theorem Tuned.run (t : d.Tuned g) (h : d.Sound₀ g) (steps : List Step) :
    (d.run steps).Done g fun r g' => r.2.Tuned g' ∧ r.2.Sound₀ g' := by
  induction steps generalizing d g with
  | nil => exact done_run_nil.2 ⟨t, h⟩
  | cons s steps ih =>
    refine done_run_cons.2 (((t.step h s).and (h.step s)).imp ?_)
    rintro r g₁ ⟨tuned, sound, -⟩
    exact ih tuned (sound.mono fun _ => False.elim)

/-- Between two steps of any run listeners are in order. -/
theorem life_tuned (s : Settings) (p : Page) (steps : List Step) :
    (life s steps).Done p.blank fun r g => r.2.Tuned g ∧ r.2.Sound₀ g := by
  have fresh : p.Fresh fun _ => False := ⟨False.elim, False.elim⟩
  refine done_life.2 (((opened_tuned p s).and (opened_sound fresh s)).imp ?_)
  rintro d g ⟨tuned, sound, -⟩
  exact tuned.run sound steps

/-! Counting. -/

/-- Whether an effect is one of the controller, of this bound story or of an earlier one. -/
def isAttendant (g : System) (e : EffectId) : Bool :=
  (g.effects[e]?.map fun x => x.body.binds).getD false

def attention (g : System) (c : CellId) : Nat := (g.slotsOf c).countP fun l =>
  g.isLive l && match g.listeners[l]? with
    | some ⟨.rerun e _, _, _⟩ => isAttendant g e
    | _ => false

/-- Between two steps a listener lives as long as it is not given up. -/
theorem attention_eq (loose : g.Loose) (c : CellId) :
    attention g c = ((g.audience c).filter (isAttendant g)).length := by
  rw [attention, Graph.audience, ← List.countP_eq_length_filter, List.countP_filterMap]
  refine List.countP_congr fun l _ => ?_
  rw [Graph.isLive, Graph.target?]
  have pins := loose l
  cases hy : g.listeners[l]? with
  | none => simp
  | some y =>
    rw [Graph.pinsOf, hy] at pins
    obtain ⟨reaction, guarded, count⟩ := y
    obtain rfl : count = 0 := pins
    cases reaction with
    | call b => simp [Listener.target?]
    | rerun e epoch => cases guarded <;> simp [Listener.target?, Listener.isLive]

theorem exists_runs (neat : g.Neat) {c : CellId} {e : EffectId} (he : e ∈ g.audience c) :
    ∃ duty, g.Runs e duty ∧ isAttendant g e = duty.binds := by
  obtain ⟨l, -, ht⟩ := List.mem_filterMap.1 he
  obtain ⟨y, hy, ht⟩ := Option.bind_eq_some_iff.1 ht
  obtain ⟨epoch, hr, hg⟩ := Listener.target?_eq_some.1 ht
  obtain ⟨x, hx, hd, -⟩ := neat.guarded hy hr hg
  exact ⟨x.body, ⟨x, hx, hd, rfl⟩, by simp [isAttendant, hx]⟩

theorem Free.attention (h : Free g) (t : d.Tidy g) (c : CellId) : Desk.attention g c = 0 := by
  rw [attention_eq t.loose, List.length_eq_zero_iff, List.filter_eq_nil_iff]
  intro e he
  obtain ⟨duty, hr, binds⟩ := exists_runs t.neat he
  rw [binds, (h.live hr).binds]
  simp

theorem Bound.attention {b : Bindings} {story : BoundStory} (h : d.Bound φ g b story) (t : d.Tidy g)
    (inTurn : d.InTurn g b story) (c : CellId) :
    Desk.attention g c = if c = story.arguments then 2 else if c = d.app.theme.cell then 1
    else 0 := by
  have same : (g.audience c).filter (isAttendant g) =
      g.heard (b.crew d.app.theme.cell story.arguments) c := by
    refine List.filter_congr fun e he => ?_
    obtain ⟨duty, hr, binds⟩ := exists_runs t.neat he
    rw [binds]
    rcases h.live hr with hw | rfl | rfl
    · rw [hw.binds]
      cases hc : b.crew d.app.theme.cell story.arguments e with
      | none => rfl
      | some cs =>
        have known := (h.knows hr hc).1
        exact absurd (hw.binds.symm.trans known) (by simp)
    · obtain rfl := hr.unique h.url
      rw [b.crew_url]
      rfl
    · obtain rfl := hr.unique h.address
      rw [b.crew_address inTurn.distinct]
      rfl
  rw [attention_eq t.loose, same, inTurn.heard, Bindings.order]
  split
  · rfl
  · split <;> rfl

/-- The status, what is bound, the current address, and who listens go together. -/
structure Together (d : Desk) (g : System) : Prop where
  status : g.world.isOpen = true → (g.world.status = .bound ↔ g.world.bound.isSome = true)
  closed : g.world.isOpen = false → g.world.bound = none
  bindings : g.world.bindings.isSome = g.world.bound.isSome
  address : g.world.address.isSome = g.world.bound.isSome
  undisposed : ∀ {b : Bindings} {story : BoundStory}, g.world.bindings = some b →
    g.world.bound = some story → g.Runs b.url (.followUrl story.arguments) ∧
      g.Runs b.address (.followAddress (d.route story g.world.page.origin))
  attention : ∀ c, attention g c = match g.world.bound with
    | none => 0
    | some story => if c = story.arguments then 2 else if c = d.app.theme.cell then 1 else 0

theorem Tuned.together (t : d.Tuned g) (h : d.Sound φ g) : d.Together g := by
  rcases h.standing with free | ⟨b, story, bound⟩
  · refine ⟨fun ho => ?_, fun _ => free.bound, by rw [free.bindings, free.bound]; rfl,
      by rw [free.address, free.bound]; rfl,
      fun hb => ?_, fun c => ?_⟩
    · rw [free.bound]
      exact ⟨fun hs => absurd free.bindings (h.attended.status ho hs), fun hs => by cases hs⟩
    · rw [free.bindings] at hb
      cases hb
    · rw [free.bound]
      exact free.attention t.toTidy c
  · have inTurn := t.turns bound.bindings bound.bound
    refine ⟨fun _ => ?_, fun hc => ?_, by rw [bound.bindings, bound.bound]; rfl,
      by rw [bound.current, bound.bound]; rfl, fun hb hs => ?_, fun c => ?_⟩
    · rw [inTurn.status, bound.bound]
      simp
    · exact absurd ((t.closed hc).1.symm.trans bound.bindings) (by simp)
    · obtain rfl := Option.some.inj (bound.bindings.symm.trans hb)
      obtain rfl := Option.some.inj (bound.bound.symm.trans hs)
      exact ⟨bound.url, bound.address⟩
    · rw [bound.bound]
      exact bound.attention t.toTidy inTurn c

/-! What nobody attends to. -/

/-- A change that no effect of the bound story follows asks nothing of the page. -/
theorem Answered.calls {c : CellId} {v : Signal} (h : d.Answered g c v g')
    (hc : ∀ story, g.world.bound = some story → c ≠ story.arguments ∧ c ≠ d.app.theme.cell) :
    g'.world.page.calls = g.world.page.calls := by
  rcases h with ⟨-, reports⟩ | ⟨-, -, free, bound⟩
  · rw [reports.world]
  · cases hs : g.world.bound with
    | none => exact (free hs).page.calls
    | some story =>
      have still := bound story hs
      rw [answer, if_neg (hc story hs).1, if_neg (hc story hs).2] at still
      exact still.page.calls

def Silent (d : Desk) (g : System) (s : Step) : Prop :=
  ∃ reply d' g', App.perform (d.step s) g = some ((reply, d'), g') ∧
    g'.world.page.calls = g.world.page.calls

def Tells (d : Desk) (g : System) (u : Use) : Prop :=
  ∃ reply d' g', App.perform (d.step (.use u)) g = some ((reply, d'), g') ∧
    reply = .flag g.world.bound.isSome ∧ (g.world.bound = none → d' = d ∧ g.Reports g')

/-- Arguments that are given to another cell than that of the bound story. -/
theorem Tuned.silent_setArguments (t : d.Tuned g) (h : d.Sound φ g) {name : String}
    (hn : ∀ story, g.world.bound = some story → d.kept.get? name ≠ some story.arguments)
    (args : Arguments) :
    d.Silent g (.setArguments name args) := by
  obtain ⟨⟨reply, d'⟩, g', run, -, -, takes⟩ := t.plain h (s := .setArguments name args) trivial
  refine ⟨reply, d', g', run, ?_⟩
  cases hc : d.kept.get? name with
  | none =>
    have reports : g.Reports g' := by simpa only [hc] using takes
    rw [reports.world]
  | some c =>
    have answered : d.Answered g c (.arguments args) g' := by simpa only [hc] using takes
    refine answered.calls fun story hs => ⟨?_, (t.kept hc).1⟩
    rintro rfl
    exact hn story hs hc

theorem Tuned.silent_theme (t : d.Tuned g) (h : d.Sound φ g) (hb : g.world.bound = none) {s : Step}
    (hs : (∃ theme, s = .setTheme theme) ∨ s = .use .toggleTheme) : d.Silent g s := by
  have unbound (story : BoundStory) (hs : g.world.bound = some story) {P : Prop} : P := by
    rw [hb] at hs
    cases hs
  rcases hs with ⟨theme, rfl⟩ | rfl
  · obtain ⟨⟨reply, d'⟩, g', run, -, -, answered⟩ := t.plain h (s := .setTheme theme) trivial
    exact ⟨reply, d', g', run, answered.calls fun story hs => unbound story hs⟩
  · obtain ⟨⟨reply, d'⟩, g', run, -, takes⟩ := t.plain h (s := .use .toggleTheme) trivial
    refine ⟨reply, d', g', run, ?_⟩
    simp only [Takes, Uses] at takes
    split at takes
    · exact takes.2.calls fun story hs => unbound story hs
    · rw [takes.2.world]

theorem Tuned.tells (t : d.Tuned g) (h : d.Sound φ g) (ho : g.world.isOpen = true) {u : Use}
    (hu : (∃ key input, u = .edit key input) ∨ u = .reset) : d.Tells g u := by
  have plain : (Step.use u).IsPlain := by rcases hu with ⟨key, input, rfl⟩ | rfl <;> trivial
  obtain ⟨⟨reply, d'⟩, g', run, -, takes⟩ := t.plain h plain
  refine ⟨reply, d', g', run, ?_⟩
  rcases hu with ⟨key, input, rfl⟩ | rfl
  all_goals
    simp only [Takes, Uses, ho, if_true] at takes
    cases hs : g.world.bound with
    | none =>
      rw [hs] at takes
      exact ⟨takes.2.1, fun _ => ⟨takes.1, takes.2.2⟩⟩
    | some story =>
      rw [hs] at takes
      exact ⟨takes.2.1, fun hb => by cases hb⟩

/-- Between two steps of any run, status, bound story, effects and current address go together, and
so do the listeners of the controller: two on the arguments of the bound story, one on the theme,
and none on any other cell. Arguments that are given to another cell reach nothing, nor does a theme
while no story is bound; and an edit or a reset tells whether a story is bound. -/
theorem together_of_life (s : Settings) (p : Page) (steps : List Step) :
    ∃ replies d g, App.perform (life s steps) p.blank = some ((replies, d), g) ∧ d.Together g ∧
      (∀ name args, (∀ story, g.world.bound = some story →
        d.kept.get? name ≠ some story.arguments) → d.Silent g (.setArguments name args)) ∧
      (g.world.bound = none → (∀ theme, d.Silent g (.setTheme theme)) ∧
        d.Silent g (.use .toggleTheme)) ∧
      (g.world.isOpen = true → (∀ key input, d.Tells g (.edit key input)) ∧ d.Tells g .reset) := by
  obtain ⟨⟨replies, d⟩, g, run, tuned, sound⟩ := life_tuned s p steps
  refine ⟨replies, d, g, run, tuned.together sound,
    fun name args hn => tuned.silent_setArguments sound hn args, fun hb => ⟨fun theme => ?_, ?_⟩,
    fun ho => ⟨fun key input => ?_, ?_⟩⟩
  · exact tuned.silent_theme sound hb (.inl ⟨theme, rfl⟩)
  · exact tuned.silent_theme sound hb (.inr rfl)
  · exact tuned.tells sound ho (.inl ⟨key, input, rfl⟩)
  · exact tuned.tells sound ho (.inr rfl)

/-- The first visit binds the story, with its arguments in a cell behind those of the theme and the
toolbar. -/
example : (App.perform (life {} [.use .visit]) (Page.sample Config.sample (.object [])).blank).map
    (fun r => (r.2.world.status, attention r.2 0, attention r.2 1, attention r.2 2)) =
      some (.bound, 1, 0, 2) := by
  decide +kernel

end App.Desk
end StoryPreview
