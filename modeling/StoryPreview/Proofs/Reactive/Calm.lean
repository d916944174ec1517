import Mathlib.Logic.Function.Basic
import StoryPreview.Proofs.Reactive.Rewiring
/-!
Calm meanings: bodies and reactions read cells and change the world, and leave cells, listeners and
effects alone. Under a calm meaning every write, every new effect and every announcement comes to an
end, and after a change each effect that follows the cell has seen the new value.
-/
namespace StoryPreview.Reactive
variable {B V W α : Type}

structure Graph.SameParts (g g' : Graph B V W) : Prop where
  cells : g'.cells = g.cells
  listeners : g'.listeners = g.listeners
  effects : g'.effects = g.effects

/-- What the bodies and reactions of a calm meaning do. `mentions` are the cells that a body may
read, `follows` those that it reads in every run, and `fit n w` says that the cells to which a world
refers are among the first `n`. -/
structure Calm [Inhabited V] (m : Meaning B V W) where
  mentions : B → List CellId
  follows : B → List CellId
  fit : Nat → W → Prop
  acts : B → (CellId → V) → W → W → Prop
  hears : B → V → W → W → Prop
  follows_mentions : ∀ {b : B} {c : CellId}, c ∈ follows b → c ∈ mentions b
  body_ends : ∀ (perform : Doer B V W) (b : B) {g : Graph B V W} {scopes : List Scope},
    g.scopes = .tracked [] :: scopes → (∀ c ∈ mentions b, c < g.cells.length) →
    fit g.cells.length g.world →
    (m.body b).Ends m.same perform g fun _ g' =>
      g.SameParts g' ∧ acts b g.value g.world g'.world ∧
        ∃ cs, g'.scopes = .tracked cs :: scopes ∧ ∀ c ∈ follows b, c ∈ cs
  reaction_ends : ∀ (perform : Doer B V W) (b : B) (v : V) (g : Graph B V W),
    (m.reaction b v).Ends m.same perform g fun _ g' =>
      g.SameParts g' ∧ hears b v g.world g'.world ∧ g'.scopes = g.scopes

structure Graph.Kin (g g' : Graph B V W) : Prop where
  effect : ∀ e : EffectId, g'.effects[e]?.map (fun x => (x.body, x.disposed)) =
    g.effects[e]?.map fun x => (x.body, x.disposed)
  reaction : ∀ {l : ListenerId} {y : Listener B}, g.listeners[l]? = some y →
    ∃ y', g'.listeners[l]? = some y' ∧ y'.reaction = y.reaction
  scopes : g'.scopes = g.scopes

namespace Graph
variable {g g' g'' : Graph B V W}

def Live (g : Graph B V W) (b : B) : Prop := ∃ e, g.Runs e b

namespace Kin

theorem refl (g : Graph B V W) : g.Kin g := ⟨fun _ => rfl, fun h => ⟨_, h, rfl⟩, rfl⟩

theorem trans (h : g.Kin g') (h' : g'.Kin g'') : g.Kin g'' where
  effect := fun e => (h'.effect e).trans (h.effect e)
  reaction := by
    intro l y hy
    obtain ⟨y', hy', hr⟩ := h.reaction hy
    obtain ⟨y'', hy'', hr'⟩ := h'.reaction hy'
    exact ⟨y'', hy'', hr'.trans hr⟩
  scopes := h'.scopes.trans h.scopes

theorem runs_iff (h : g.Kin g') {e : EffectId} {b : B} : g'.Runs e b ↔ g.Runs e b := by
  have key (k : Graph B V W) : k.Runs e b ↔ k.effects[e]?.map (fun x => (x.body, x.disposed)) =
      some (b, false) := by
    simp only [Runs, Option.map_eq_some_iff, Prod.mk.injEq]
    exact exists_congr fun x => and_congr_right fun _ => and_comm
  rw [key, key, h.effect]

theorem length_eq (h : g.Kin g') : g'.effects.length = g.effects.length := by
  have out (e : EffectId) : g'.effects.length ≤ e ↔ g.effects.length ≤ e := by
    rw [← List.getElem?_eq_none_iff, ← List.getElem?_eq_none_iff,
      ← Option.map_eq_none_iff (f := fun x : Effect B => (x.body, x.disposed)), h.effect,
      Option.map_eq_none_iff]
  exact Nat.le_antisymm ((out _).2 (Nat.le_refl _)) ((out _).1 (Nat.le_refl _))

theorem live_eq (h : g.Kin g') : g'.Live = g.Live := by
  funext b
  exact propext (exists_congr fun e => h.runs_iff)

theorem listener_lt (h : g.Kin g') {l : ListenerId} (hl : l < g.listeners.length) :
    l < g'.listeners.length := by
  obtain ⟨y, hy, -⟩ := h.reaction (List.getElem?_eq_getElem hl)
  exact (List.getElem?_eq_some_iff.1 hy).1

end Kin

theorem SameParts.wired {mentions follows : B → List CellId} {out : Option EffectId}
    (h : g.SameParts g') (hw : g.Wired mentions follows out) : g'.Wired mentions follows out :=
  hw.congr h.cells h.listeners h.effects

theorem SameParts.steady (h : g.SameParts g') : g.Steady g' := .of_eq h.cells h.listeners

theorem SameParts.kin (h : g.SameParts g') (hs : g'.scopes = g.scopes) : g.Kin g' where
  effect := by simp [h.effects]
  reaction := fun hy => ⟨_, by rw [h.listeners]; exact hy, rfl⟩
  scopes := hs

theorem addEffect_runs (body : B) {e : EffectId} {b : B} : (g.addEffect body).2.Runs e b ↔
    g.Runs e b ∨ e = g.effects.length ∧ b = body := by
  simp only [Runs, addEffect, List.getElem?_append]
  by_cases he : e < g.effects.length
  · have hne : e ≠ g.effects.length := Nat.ne_of_lt he
    simp [he, hne]
  · have none : g.effects[e]? = none := List.getElem?_eq_none_iff.2 (Nat.le_of_not_lt he)
    by_cases heq : e = g.effects.length
    · subst heq
      simp only [Nat.lt_irrefl, if_false, Nat.sub_self, List.getElem?_cons_zero, Option.some.injEq,
        exists_eq_left', none, reduceCtorEq, false_and, exists_false, true_and, false_or]
      exact eq_comm
    · have hgt : e - g.effects.length ≠ 0 := fun h => heq
        (Nat.le_antisymm (Nat.le_of_sub_eq_zero h) (Nat.le_of_not_lt he))
      simp [he, heq, hgt]

theorem Alike.kin (h : g.Alike g') : g.Kin g' where
  effect := by simp [h.effects]
  reaction := by
    intro l y hy
    obtain ⟨y', hy', hr, -⟩ := h.listener_some hy
    exact ⟨y', hy', hr⟩
  scopes := h.scopes

theorem value_congr [Inhabited V] (h : g'.cells = g.cells) : g'.value = g.value := by
  funext c
  simp [value, h]

theorem withCell_kin (g : Graph B V W) (c : CellId) (z : Cell V) : g.Kin (g.withCell c z) :=
  ⟨fun _ => rfl, fun h => ⟨_, h, rfl⟩, rfl⟩

theorem withCell_value [Inhabited V] {c : CellId} {z : Cell V} (hc : c < g.cells.length) :
    (g.withCell c z).value = Function.update g.value c z.value := by
  funext d
  by_cases hcd : c = d
  · subst hcd
    simp [value, withCell_cell hc]
  · simp [value, withCell_cell hc, hcd, Function.update_of_ne (Ne.symm hcd)]

end Graph

namespace Calm
variable [Inhabited V] {m : Meaning B V W} (calm : Calm m) (perform : Doer B V W)
variable {g : Graph B V W} {e : EffectId} {x : Effect B}

abbrev Wired (out : Option EffectId) (g : Graph B V W) : Prop :=
  g.Wired calm.mentions calm.follows out

/-- A run of an effect leaves everything but the world as it was, and does what its body does. -/
theorem rerun_ends (hw : calm.Wired (some e) g) (hx : g.effects[e]? = some x)
    (hd : x.disposed = false) (hr : x.running = false) (hfit : calm.fit g.cells.length g.world) :
    ∃ g', rerun m perform e g = some g' ∧ calm.Wired none g' ∧ g.Steady g' ∧ g.Kin g' ∧
      (∀ d : EffectId, e ≠ d → g'.effects[d]? = g.effects[d]?) ∧
      calm.acts x.body g.value g.world g'.world := by
  have hlt := (List.getElem?_eq_some_iff.1 hx).1
  let x₁ : Effect B := { x with running := true, epoch := x.epoch + 1, subscriptions := [] }
  have started : (g.start e x).effects = g.effects.set e x₁ := Graph.start_effects
  obtain ⟨_, b, hb, parts, acts, cs, hcs, hf⟩ := calm.body_ends perform x.body (g := g.start e x)
    Graph.start_scopes (fun c hc => by rw [Graph.start_cells]; exact hw.known hx hd hc)
    (by rw [Graph.start_cells, Graph.start_world]; exact hfit)
  have wired := parts.wired (hw.start hx)
  have steady := (Graph.Steady.start g e x).trans parts.steady
  have effects : b.effects = g.effects.set e x₁ := parts.effects.trans started
  have hx₁ : b.effects[e]? = some x₁ := by rw [effects]; exact List.getElem?_set_self hlt
  obtain ⟨ls, ended⟩ := Graph.finish_effects hx₁ hd
  rw [effects, List.set_set] at ended
  have finished := wired.finish hx₁ hd hcs fun c hc =>
    ⟨hf c hc, wired.known hx₁ hd (calm.follows_mentions hc)⟩
  refine ⟨b.finish e, ?_, finished, steady.trans (.finish hx₁ hd), ⟨?_, ?_, ?_⟩, ?_, ?_⟩
  · simp only [rerun, hx, Option.bind_some, hd, hr, Bool.or_self, Bool.false_eq_true, if_false, hb,
      Option.map_some]
  · intro d
    rw [ended]
    by_cases hde : e = d
    · subst hde
      rw [List.getElem?_set_self hlt, hx]
      rfl
    · rw [List.getElem?_set_ne hde]
  · exact (steady.trans (.finish hx₁ hd)).reaction
  · rw [Graph.finish_scopes hx₁ hd, hcs]
    rfl
  · intro d hde
    rw [ended, List.getElem?_set_ne hde]
  · rw [Graph.finish_world hx₁ hd]
    rwa [Graph.start_world, Graph.value_congr (g := g) Graph.start_cells] at acts

structure Spawned (body : B) (g g' : Graph B V W) : Prop where
  wired : calm.Wired none g'
  steady : g.Steady g'
  runs : ∀ {e : EffectId} {b : B}, g'.Runs e b ↔ g.Runs e b ∨ e = g.effects.length ∧ b = body
  length : g'.effects.length = g.effects.length + 1
  scopes : g'.scopes = g.scopes
  acts : calm.acts body g.value g.world g'.world

theorem spawn_ends (depth : Nat) {body : B} (hw : calm.Wired none g)
    (hm : ∀ c ∈ calm.mentions body, c < g.cells.length) (hfit : calm.fit g.cells.length g.world) :
    ∃ g', Reactive.perform m (depth + 1) (.effect g.effects.length) (g.addEffect body).2 = some g' ∧
      calm.Spawned body g g' := by
  have hx : (g.addEffect body).2.effects[g.effects.length]? = some { body := body } := by
    simp [Graph.addEffect]
  obtain ⟨g', hrun, wired, steady, kin, -, acts⟩ := calm.rerun_ends (Reactive.perform m depth)
    (hw.addEffect body hm) hx rfl rfl hfit
  have added : g.Steady (g.addEffect body).2 := .of_eq rfl rfl
  exact ⟨g', hrun, wired, added.trans steady,
    fun {e b} => kin.runs_iff.trans (Graph.addEffect_runs body),
    kin.length_eq.trans (by simp [Graph.addEffect]), kin.scopes, acts⟩

/-- A call of a listener changes the world at most by its reaction, or by a run of an effect. An
effect that is not disposed has run afterwards, or is as before and was not the one that the
listener is for. -/
theorem call_ends (depth : Nat) (v : V) {l : ListenerId} {y : Listener B} (hw : calm.Wired none g)
    (hy : g.listeners[l]? = some y) (hfit : calm.fit g.cells.length g.world) :
    ∃ g', Reactive.perform m (depth + 1) (.call l v) g = some g' ∧ calm.Wired none g' ∧
    g.Steady g' ∧
      g.Kin g' ∧
      (g'.world = g.world ∨ (∃ b, y.reaction = .call b ∧ calm.hears b v g.world g'.world) ∨
        ∃ e b, g.Runs e b ∧ calm.acts b g.value g.world g'.world) ∧
      ∀ {e : EffectId} {x : Effect B}, g.effects[e]? = some x → x.disposed = false →
        calm.acts x.body g.value g.world g'.world ∨
        g'.effects[e]? = some x ∧ y.reaction ≠ .rerun e x.epoch := by
  have called : g.SameParts (g.record (.called l v)) := ⟨rfl, rfl, rfl⟩
  have noted (n : Event V) : g.SameParts ((g.record (.called l v)).record n) := ⟨rfl, rfl, rfl⟩
  simp only [Reactive.perform, hy, Option.bind_some]
  cases hr : y.reaction with
  | call b =>
    obtain ⟨_, g', hrun, parts, hears, scopes⟩ :=
      calm.reaction_ends (Reactive.perform m depth) b v (g.record (.called l v))
    have same : g.SameParts g' := ⟨parts.cells, parts.listeners, parts.effects⟩
    refine ⟨g', by simp [react, hrun], same.wired hw, same.steady, same.kin scopes,
      .inr (.inl ⟨b, rfl, hears⟩), fun he hd => .inr ⟨?_, by simp⟩⟩
    rw [same.effects, he]
  | rerun e epoch =>
    obtain ⟨x, hx⟩ : ∃ x, g.effects[e]? = some x :=
      ⟨_, List.getElem?_eq_getElem (hw.target_lt hy hr)⟩
    have resting : x.running = false := hw.resting (by simp) hx
    simp only [react, Graph.record_effects, hx, Option.bind_some, resting, Bool.or_false]
    -- The effect runs if its record is owned, the listener is of its latest run, and it is not
    -- disposed.
    by_cases ho : x.owned = true
    · by_cases hk : x.epoch = epoch
      · by_cases hd : x.disposed = true
        · refine ⟨_, ?_, called.wired hw, called.steady, called.kin rfl, .inl rfl,
            fun {d z} hz hdis => ?_⟩
          · simp [ho, hk, rerun, hx, hd]
          · refine .inr ⟨hz, fun heq => ?_⟩
            cases heq
            rw [hz] at hx
            cases hx
            simp [hdis] at hd
        · have hd : x.disposed = false := by simpa using hd
          obtain ⟨g', hrun, wired, steady, kin, other, acts⟩ :=
            calm.rerun_ends (Reactive.perform m depth)
              ((called.wired hw).except e) hx hd resting hfit
          refine ⟨g', by simpa [ho, hk] using hrun, wired, called.steady.trans steady,
            (called.kin rfl).trans kin, .inr (.inr ⟨e, x.body, ⟨x, hx, hd, rfl⟩, acts⟩),
            fun {d z} hz hdis => ?_⟩
          by_cases hde : e = d
          · subst hde
            obtain rfl := Option.some.inj (hx.symm.trans hz)
            exact .inl acts
          · refine .inr ⟨(other d hde).trans hz, fun heq => ?_⟩
            cases heq
            exact hde rfl
      · refine ⟨(g.record (.called l v)).record (.stale e epoch x.epoch), by simp [ho, hk],
          (noted _).wired hw, (noted _).steady, (noted _).kin rfl, .inl rfl,
          fun {d z} hz hdis => .inr ⟨hz, fun heq => ?_⟩⟩
        cases heq
        rw [hz] at hx
        cases hx
        exact hk rfl
    · refine ⟨_, by simp [ho], called.wired hw, called.steady, called.kin rfl, .inl rfl,
        fun {d z} hz hdis => .inr ⟨hz, fun heq => ?_⟩⟩
      cases heq
      rw [hz] at hx
      cases hx
      exact ho (hw.owned hz hdis)

/-- An effect is captured by listeners: one of them makes its present epoch run again. -/
def Captured (g : Graph B V W) (ls : List ListenerId) (e : EffectId) : Prop :=
  ∃ x l y, g.effects[e]? = some x ∧ l ∈ ls ∧ g.listeners[l]? = some y ∧
    y.reaction = .rerun e x.epoch

/-- A property of the world that nothing breaks that is done while a new value `v` is announced: not
the bodies that are live, nor the reactions. -/
structure Kept (val : CellId → V) (live : B → Prop) (v : V) (J P : W → Prop) : Prop where
  acts : ∀ {b : B} {w w' : W}, live b → J w → P w → calm.acts b val w w' → P w'
  hears : ∀ {b : B} {w w' : W}, J w → P w → calm.hears b v w w' → P w'

variable {calm} in
/-- A call breaks nothing that is kept. -/
theorem Kept.call {v : V} {J P : W → Prop} {y : Listener B} {g g' : Graph B V W}
    (kept : calm.Kept g.value g.Live v J P) (hJ : J g.world) (hP : P g.world)
    (change : g'.world = g.world ∨ (∃ b, y.reaction = .call b ∧ calm.hears b v g.world g'.world) ∨
      ∃ e b, g.Runs e b ∧ calm.acts b g.value g.world g'.world) : P g'.world := by
  rcases change with same | ⟨b, -, hears⟩ | ⟨e, b, hr, acts⟩
  · rwa [same]
  · exact kept.hears hJ hP hears
  · exact kept.acts ⟨e, hr⟩ hJ hP acts

/-- An announcement comes to an end. What it keeps it keeps, and what a captured effect brings about
when it runs holds in the end. -/
theorem announce_ends (depth : Nat) (v : V) {J : W → Prop} {ls : List ListenerId} {g : Graph B V W}
    (hw : calm.Wired none g) (hl : ∀ l ∈ ls, l < g.listeners.length)
    (hfit : ∀ w, J w → calm.fit g.cells.length w) (kept : calm.Kept g.value g.Live v J J)
    (hJ : J g.world) :
    ∃ g', announce (Reactive.perform m (depth + 1)) v ls g = some g' ∧ calm.Wired none g' ∧
    g.Steady g' ∧
      g.Kin g' ∧ J g'.world ∧
      ∀ {P : W → Prop}, calm.Kept g.value g.Live v J P →
        (P g.world ∨ ∃ e b, g.Runs e b ∧ Captured g ls e ∧
          ∀ w w', J w → calm.acts b g.value w w' → P w') → P g'.world := by
  induction ls generalizing g with
  | nil =>
    refine ⟨g, rfl, hw, .refl g, .refl g, hJ, fun _ hP => ?_⟩
    rcases hP with hP | ⟨e, b, -, ⟨x, l, y, -, hl, -⟩, -⟩
    · exact hP
    · simp at hl
  | cons l ls ih =>
    have hlt := hl l (List.mem_cons_self ..)
    have rest : ∀ k ∈ ls, k < g.listeners.length := fun k hk => hl k (List.mem_cons_of_mem l hk)
    have hy := List.getElem?_eq_getElem hlt
    obtain ⟨g₁, hrun, wired, steady, kin, change, seen⟩ := calm.call_ends depth v hw hy (hfit _ hJ)
    obtain ⟨g', hann, wired', steady', kin', hJ', settled⟩ :=
      ih wired (fun k hk => kin.listener_lt (rest k hk))
      (by rwa [steady.length_eq]) (by rwa [steady.value_eq, kin.live_eq]) (kept.call hJ hJ change)
    rw [steady.value_eq, kin.live_eq] at settled
    refine ⟨g', by simp [announce, hrun, hann], wired', steady.trans steady', kin.trans kin', hJ',
      fun {P} hP h => settled hP ?_⟩
    rcases h with h | ⟨e, b, hr, ⟨x, k, z, hx, hk, hz, hzr⟩, est⟩
    · exact .inl (hP.call hJ h change)
    · -- The effect runs now, or it is still captured by one of the listeners that are left.
      obtain ⟨x', hx', hd, rfl⟩ := id hr
      obtain rfl := Option.some.inj (hx.symm.trans hx')
      rcases seen hx hd with acts | ⟨hsame, hne⟩
      · exact .inl (est _ _ hJ acts)
      · rcases List.mem_cons.1 hk with rfl | hk
        · obtain rfl := Option.some.inj (hy.symm.trans hz)
          exact absurd hzr hne
        · obtain ⟨z', hz', hzr'⟩ := kin.reaction hz
          exact .inr ⟨e, x.body, kin.runs_iff.2 hr, ⟨x, k, z', hsame, hk, hz', hzr'.trans hzr⟩, est⟩

structure Written (c : CellId) (v : V) (g g' : Graph B V W) : Prop where
  wired : calm.Wired none g'
  value : g'.value = Function.update g.value c v
  length : g'.cells.length = g.cells.length
  kin : g.Kin g'

/-- A cell that takes another value has captured its living listeners. -/
theorem assign_written {c : CellId} {v : V} (hw : calm.Wired none g) (hc : c < g.cells.length)
    (hs : m.same (g.value c) v = false) : ∃ g', g.assign m.same c v = some (g.liveSlots c, g') ∧
      calm.Written c v g g' ∧ (∀ l ∈ g.liveSlots c, l < g'.listeners.length) ∧
      ∃ z : Cell V, z.slots = g.liveSlots c ∧ (g.withCell c z).Alike g' := by
  have hx := List.getElem?_eq_getElem hc
  rw [Graph.value_of_cell hx] at hs
  obtain ⟨g', hassign, alike⟩ := Graph.assign_changed hx hs
  have live : g.liveSlots c = (g.cells[c]).slots.filter g.isLive := by simp [Graph.liveSlots, hx]
  refine ⟨g', hassign, ⟨alike.wired (hw.withCell hx live), ?_, ?_,
    (Graph.withCell_kin g c _).trans alike.kin⟩, fun l hl => ?_, _, rfl, alike⟩
  · exact (Graph.value_congr alike.cells).trans (Graph.withCell_value hc)
  · simp [alike.cells, Graph.withCell]
  · rw [live] at hl
    exact Nat.lt_of_lt_of_le (hw.slot_lt hx (List.mem_filter.1 hl).1) alike.length_le

/-- A write comes to an end. Without a change nothing happens. After a change, what the write keeps
has been kept, and what an effect that follows the cell brings about when it runs holds. -/
theorem write_ends (depth : Nat) {c : CellId} {v : V} {J : W → Prop} (hw : calm.Wired none g)
    (hc : c < g.cells.length) (hfit : ∀ w, J w → calm.fit g.cells.length w)
    (kept : calm.Kept (Function.update g.value c v) g.Live v J J) (hJ : J g.world) :
    (Program.write c v (.done ())).Ends m.same (Reactive.perform m (depth + 1)) g fun _ g' =>
      m.same (g.value c) v = true ∧ g' = g ∨
      m.same (g.value c) v = false ∧ calm.Written c v g g' ∧ J g'.world ∧
        ∀ {P : W → Prop}, calm.Kept (Function.update g.value c v) g.Live v J P →
          (P g.world ∨ ∃ e b, g.Runs e b ∧ c ∈ calm.follows b ∧
            ∀ w w', J w → calm.acts b (Function.update g.value c v) w w' → P w') → P g'.world := by
  rw [Program.ends_write]
  cases hs : m.same (g.value c) v with
  | true =>
    have hx := List.getElem?_eq_getElem hc
    exact ⟨[], g, Graph.assign_same hx (Graph.value_of_cell hx ▸ hs), g, rfl,
      Program.ends_done.2 (.inl ⟨rfl, rfl⟩)⟩
  | false =>
    obtain ⟨g₁, hassign, ⟨wired, value, length, kin⟩, slots, z, -, alike⟩ :=
      calm.assign_written hw hc hs
    have world : g₁.world = g.world := alike.world
    obtain ⟨g₂, hann, wired₂, steady, kin₂, hJ₂, settled⟩ := calm.announce_ends depth v wired slots
      (by rwa [length]) (by rwa [value, kin.live_eq]) (by rwa [world])
    rw [value, kin.live_eq, world] at settled
    have unpinned := Graph.Alike.foldl Graph.Alike.unpin (g.liveSlots c) g₂
    refine ⟨g.liveSlots c, g₁, hassign, g₂, hann, ?_⟩
    rw [Program.ends_done]
    refine .inr ⟨rfl, ⟨unpinned.wired wired₂, ?_, ?_, (kin.trans kin₂).trans unpinned.kin⟩, ?_, ?_⟩
    · rw [unpinned.steady.value_eq, steady.value_eq, value]
    · rw [unpinned.steady.length_eq, steady.length_eq, length]
    · rwa [unpinned.world]
    · -- An effect that follows the cell is hooked to it, so it was captured.
      intro P hP h
      rw [unpinned.world]
      refine settled hP (h.imp_right ?_)
      rintro ⟨e, b, hr, hf, est⟩
      refine ⟨e, b, kin.runs_iff.2 hr, ?_, est⟩
      obtain ⟨x, hx, hd, rfl⟩ := hr
      obtain ⟨l, hl, y, hy, hyr⟩ := (hw.hooked (by simp) hx hd hf).captured
      obtain ⟨y', hy', hr'⟩ := kin.reaction hy
      refine ⟨x, l, y', ?_, hl, hy', hr'.trans hyr⟩
      rw [alike.effects]
      exact hx

end Calm
end StoryPreview.Reactive
