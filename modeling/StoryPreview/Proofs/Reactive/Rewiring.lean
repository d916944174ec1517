import StoryPreview.Proofs.Reactive.Wiring
/-!
How the wiring changes when an effect runs, when it is given up, and when a cell gets a value. In
all this values and reactions stay as they are, except for the value that is given.
-/
namespace StoryPreview.Reactive.Graph
variable {B V W : Type} {mentions follows : B → List CellId} {out : Option EffectId}
variable {g g' g'' : Graph B V W}

def Lasting (g g' : Graph B V W) : Prop :=
  ∀ {l : ListenerId} {y : Listener B}, g.listeners[l]? = some y →
  ∃ y', g'.listeners[l]? = some y' ∧ y'.reaction = y.reaction

theorem Lasting.of_eq (h : g'.listeners = g.listeners) : g.Lasting g' :=
  fun {_ y} hy => ⟨y, h ▸ hy, rfl⟩

theorem Lasting.trans (h : g.Lasting g') (h' : g'.Lasting g'') : g.Lasting g'' := by
  intro l y hy
  obtain ⟨y', hy', hr⟩ := h hy
  obtain ⟨y'', hy'', hr'⟩ := h' hy'
  exact ⟨y'', hy'', hr'.trans hr⟩

structure Steady (g g' : Graph B V W) : Prop where
  value : ∀ c : CellId, g'.cells[c]?.map Cell.value = g.cells[c]?.map Cell.value
  reaction : ∀ {l : ListenerId} {y : Listener B}, g.listeners[l]? = some y →
    ∃ y', g'.listeners[l]? = some y' ∧ y'.reaction = y.reaction

namespace Steady

theorem refl (g : Graph B V W) : g.Steady g := ⟨fun _ => rfl, Lasting.of_eq rfl⟩

theorem trans (h : g.Steady g') (h' : g'.Steady g'') : g.Steady g'' where
  value := fun c => (h'.value c).trans (h.value c)
  reaction := Lasting.trans h.reaction h'.reaction

/-- Only cells and listeners matter. -/
theorem of_eq (hc : g'.cells = g.cells) (hl : g'.listeners = g.listeners) : g.Steady g' :=
  ⟨fun _ => by rw [hc], Lasting.of_eq hl⟩

theorem value_eq [Inhabited V] (h : g.Steady g') : g'.value = g.value := by
  funext c
  simp [Graph.value, h.value c]

theorem length_eq (h : g.Steady g') : g'.cells.length = g.cells.length := by
  have out (c : CellId) : g'.cells.length ≤ c ↔ g.cells.length ≤ c := by
    rw [← List.getElem?_eq_none_iff, ← List.getElem?_eq_none_iff,
      ← Option.map_eq_none_iff (f := Cell.value), h.value, Option.map_eq_none_iff]
  exact Nat.le_antisymm ((out _).2 (Nat.le_refl _)) ((out _).1 (Nat.le_refl _))

theorem releaseAll (g : Graph B V W) (ls : List ListenerId) : g.Steady (g.releaseAll ls) where
  value := by simp
  reaction := by
    intro l y hy
    refine ⟨_, by rw [releaseAll_listener, hy]; rfl, ?_⟩
    split <;> rfl

theorem subscribe (g : Graph B V W) (c : CellId) (r : Reaction B) :
    g.Steady (g.subscribe c r).2 where
  value := by
    intro d
    rw [subscribe_cell, Option.map_map]
    refine congrFun (congrArg Option.map ?_) _
    funext x
    simp only [Function.comp_apply]
    split <;> rfl
  reaction := by
    intro l y hy
    exact ⟨y, by rw [subscribe_listener_old c r (List.getElem?_eq_some_iff.1 hy).1, hy], rfl⟩

end Steady

theorem Hooked.congr {e epoch c : Nat} (h : g.Hooked e epoch c) (hc : g'.cells = g.cells)
    (hl : g'.listeners = g.listeners) : g'.Hooked e epoch c := by
  unfold Hooked at h ⊢
  rw [hc, hl]
  exact h

/-! An effect attaches itself to the cells that it has read. -/

theorem attach_eq (e : EffectId) (epoch : Nat) (cs : List CellId) (g : Graph B V W) :
    (g.attach e epoch cs).2 =
      { g with
        cells := (g.attach e epoch cs).2.cells
        listeners := (g.attach e epoch cs).2.listeners } := by
  induction cs generalizing g with
  | nil => rfl
  | cons c cs ih => exact ih (g.subscribe c (.rerun e epoch)).2

section Attach
variable (e : EffectId) (epoch : Nat) (cs : List CellId) (g : Graph B V W)

@[simp] theorem attach_effects : (g.attach e epoch cs).2.effects = g.effects := by rw [attach_eq]
@[simp] theorem attach_scopes : (g.attach e epoch cs).2.scopes = g.scopes := by rw [attach_eq]
@[simp] theorem attach_world : (g.attach e epoch cs).2.world = g.world := by rw [attach_eq]

end Attach

theorem Hooked.attach {e epoch d k : Nat} {c : CellId} (h : g.Hooked d k c) (cs : List CellId) :
    (g.attach e epoch cs).2.Hooked d k c := by
  induction cs generalizing g with
  | nil => exact h
  | cons a cs ih => exact ih (h.subscribe a (.rerun e epoch))

theorem attach_hooked {e epoch : Nat} {cs : List CellId} {c : CellId} (hc : c ∈ cs)
    (hlt : c < g.cells.length) : (g.attach e epoch cs).2.Hooked e epoch c := by
  induction cs generalizing g with
  | nil => simp at hc
  | cons a cs ih =>
    rcases List.mem_cons.1 hc with rfl | hc
    · have hooked : (g.subscribe c (.rerun e epoch)).2.Hooked e epoch c := by
        refine ⟨{ g.cells[c] with slots := g.cells[c].slots ++ [g.listeners.length] },
          g.listeners.length, _, ?_, by simp, subscribe_listener_new c _, rfl, rfl⟩
        rw [subscribe_cell, List.getElem?_eq_getElem hlt]
        simp
      exact hooked.attach cs
    · exact ih hc (Nat.lt_of_lt_of_eq hlt (subscribe_cells_length a _).symm)

theorem Steady.attach (e epoch : Nat) (cs : List CellId) (g : Graph B V W) :
    g.Steady (g.attach e epoch cs).2 := by
  induction cs generalizing g with
  | nil => exact .refl g
  | cons c cs ih => exact (Steady.subscribe g c _).trans (ih _)

/-- The listeners that an effect gets make it run again. -/
theorem attach_reaction {e epoch : Nat} {cs : List CellId} {l : ListenerId}
    (hl : l ∈ (g.attach e epoch cs).1) :
    ∃ y, (g.attach e epoch cs).2.listeners[l]? = some y ∧ y.reaction = .rerun e epoch := by
  induction cs generalizing g with
  | nil => simp [Graph.attach] at hl
  | cons c cs ih =>
    rcases List.mem_cons.1 hl with rfl | hl
    · obtain ⟨y, hy, hr⟩ := (Steady.attach e epoch cs (g.subscribe c (.rerun e epoch)).2).reaction
        (subscribe_listener_new c (.rerun e epoch))
      exact ⟨y, hy, hr⟩
    · exact ih hl

theorem Wired.attach {e : EffectId} (h : g.Wired mentions follows out) (he : e < g.effects.length)
    (epoch : Nat) (cs : List CellId) : (g.attach e epoch cs).2.Wired mentions follows out := by
  induction cs generalizing g with
  | nil => exact h
  | cons c cs ih =>
    refine ih (h.subscribe c _ ?_) he
    rintro d k ⟨⟩
    exact he

def Owns (g : Graph B V W) : Prop :=
  ∀ {e : EffectId} {x : Effect B} {l : ListenerId}, g.effects[e]? = some x →
  l ∈ x.subscriptions → ∃ y epoch, g.listeners[l]? = some y ∧ y.reaction = .rerun e epoch

theorem Owns.only (own : g.Owns) {e : EffectId} {x : Effect B} (hx : g.effects[e]? = some x)
    (l : ListenerId) (hl : l ∈ x.subscriptions) (y : Listener B) (hy : g.listeners[l]? = some y)
    (d epoch : Nat) (hr : y.reaction = .rerun d epoch) : d = e := by
  obtain ⟨z, k, hz, hk⟩ := own hx hl
  obtain rfl := Option.some.inj (hy.symm.trans hz)
  cases hr.symm.trans hk
  rfl

/-! The beginning and the end of a run. -/

section Run
variable {e : EffectId} {x : Effect B}

@[simp] theorem start_cells : (g.start e x).cells = g.cells := releaseAll_cells x.subscriptions
@[simp] theorem start_world : (g.start e x).world = g.world := releaseAll_world x.subscriptions

@[simp] theorem start_scopes : (g.start e x).scopes = .tracked [] :: g.scopes :=
  congrArg (Scope.tracked [] :: ·) (releaseAll_scopes x.subscriptions)

@[simp] theorem start_effects : (g.start e x).effects =
    g.effects.set e { x with running := true, epoch := x.epoch + 1, subscriptions := [] } :=
  congrArg (List.set · e _) (releaseAll_effects x.subscriptions)

theorem Steady.start (g : Graph B V W) (e : EffectId) (x : Effect B) : g.Steady (g.start e x) :=
  (Steady.releaseAll g x.subscriptions).trans (.of_eq rfl rfl)

theorem Wired.start (h : g.Wired mentions follows (some e)) (hx : g.effects[e]? = some x) :
    (g.start e x).Wired mentions follows (some e) := by
  have released := h.releaseAll x.subscriptions (Owns.only h.own hx)
  have set := released.setEffect (x := x)
    { x with running := true, epoch := x.epoch + 1, subscriptions := [] }
    (by rwa [releaseAll_effects]) rfl (fun hd => ⟨hd, rfl⟩) (by simp)
  exact set.congr rfl rfl rfl

def ended (x : Effect B) (ls : List ListenerId) : Effect B :=
  { x with runs := x.runs + 1, running := false, subscriptions := ls, dependencies := ls.length }

def pop (g : Graph B V W) : Graph B V W := { g with scopes := g.scopes.tail }

theorem finish_unborn (hx : g.effects[e]? = none) : g.finish e = g.pop := by
  simp only [Graph.finish, hx]
  rfl

/-- The end of a run of an effect that has been disposed meanwhile. -/
theorem finish_gone (hx : g.effects[e]? = some x) (disposed : x.disposed = true) :
    g.finish e = { g.pop with
      effects := g.effects.set e { x with runs := x.runs + 1, running := false } } := by
  simp only [Graph.finish, hx]
  rw [if_pos disposed]
  rfl

/-- The end of a run of an effect that has not been disposed. -/
theorem finish_eq (hx : g.effects[e]? = some x) (hd : x.disposed = false) :
    g.finish e =
      let r := g.pop.attach e x.epoch g.reads
      { r.2 with effects := g.effects.set e (ended x r.1) }.record
        (.ran e r.1.length (x.runs + 1)) := by
  simp only [Graph.finish, hx]
  rw [if_neg (by simp [hd])]
  simp only [attach_effects]
  rfl

/-- A run attaches nothing at its end, unless there is an effect that has not been disposed. -/
theorem finish_cases (g : Graph B V W) (e : EffectId) :
    (∃ effects, effects.length = g.effects.length ∧
      g.finish e = { g.pop with effects := effects }) ∨
      ∃ x, g.effects[e]? = some x ∧ x.disposed = false := by
  cases hx : g.effects[e]? with
  | none => exact .inl ⟨g.effects, rfl, finish_unborn hx⟩
  | some x =>
    cases hd : x.disposed with
    | true => exact .inl ⟨_, List.length_set .., finish_gone hx hd⟩
    | false => exact .inr ⟨x, rfl, hd⟩

theorem Wired.finish {cs : List CellId} {scopes : List Scope}
    (h : g.Wired mentions follows (some e)) (hx : g.effects[e]? = some x) (hd : x.disposed = false)
    (hs : g.scopes = .tracked cs :: scopes)
    (hf : ∀ c ∈ follows x.body, c ∈ cs ∧ c < g.cells.length) :
    (g.finish e).Wired mentions follows none := by
  have hlt := (List.getElem?_eq_some_iff.1 hx).1
  have popped : g.pop.Wired mentions follows (some e) := h.congr rfl rfl rfl
  have reads : g.reads = cs := by simp [Graph.reads, hs]
  have attached := popped.attach hlt x.epoch cs
  have effects : (g.pop.attach e x.epoch cs).2.effects = g.effects :=
    attach_effects e x.epoch cs g.pop
  have set := attached.setEffect (x := x) (ended x (g.pop.attach e x.epoch cs).1)
    (by rwa [effects]) rfl (fun hd => ⟨hd, rfl⟩) fun l hl => by
      obtain ⟨y, hy, hr⟩ := attach_reaction hl
      exact ⟨y, x.epoch, hy, hr⟩
  rw [effects] at set
  rw [finish_eq hx hd, reads]
  refine Wired.include (e := e) (x := ended x (g.pop.attach e x.epoch cs).1)
    (set.congr rfl rfl rfl) ?_ rfl ?_
  · exact List.getElem?_set_self hlt
  · intro _ c hc
    have hooked : (g.pop.attach e x.epoch cs).2.Hooked e x.epoch c :=
      attach_hooked (hf c hc).1 (hf c hc).2
    exact hooked.congr rfl rfl

theorem Steady.finish (hx : g.effects[e]? = some x) (hd : x.disposed = false) :
    g.Steady (g.finish e) := by
  have popped : g.Steady g.pop := .of_eq rfl rfl
  have attached := popped.trans (Steady.attach e x.epoch g.reads g.pop)
  rw [finish_eq hx hd]
  exact attached.trans (.of_eq rfl rfl)

theorem finish_world (hx : g.effects[e]? = some x) (hd : x.disposed = false) :
    (g.finish e).world = g.world := by
  rw [finish_eq hx hd]
  exact attach_world e x.epoch g.reads g.pop

theorem finish_scopes (hx : g.effects[e]? = some x) (hd : x.disposed = false) :
    (g.finish e).scopes = g.scopes.tail := by
  rw [finish_eq hx hd]
  exact attach_scopes e x.epoch g.reads g.pop

theorem finish_effects (hx : g.effects[e]? = some x) (hd : x.disposed = false) :
    ∃ ls, (g.finish e).effects = g.effects.set e (ended x ls) := by
  rw [finish_eq hx hd]
  exact ⟨_, rfl⟩

end Run

/-! An effect is given up. -/

def gone (x : Effect B) : Effect B :=
  { x with disposed := true, subscriptions := [], dependencies := 0 }

section Dispose
variable {e : EffectId} {x : Effect B}

theorem dispose_eq (hx : g.effects[e]? = some x) (hd : x.disposed = false) :
    g.dispose e = { g.releaseAll x.subscriptions with effects := g.effects.set e (gone x) } := by
  simp only [Graph.dispose, hx]
  rw [if_neg (by simp [hd]), releaseAll_effects]
  rfl

theorem dispose_idle (h : ∀ x, g.effects[e]? = some x → x.disposed = true) : g.dispose e = g := by
  unfold Graph.dispose
  split
  · rfl
  · rename_i x hx
    rw [if_pos (h x hx)]

/-- A state in which an effect is given up: either it was already, or it is detached. -/
theorem dispose_cases (g : Graph B V W) (e : EffectId) :
    g.dispose e = g ∧ (∀ x, g.effects[e]? = some x → x.disposed = true) ∨
    ∃ x, g.effects[e]? = some x ∧ x.disposed = false ∧
      g.dispose e = { g.releaseAll x.subscriptions with effects := g.effects.set e (gone x) } := by
  by_cases h : ∀ x, g.effects[e]? = some x → x.disposed = true
  · exact .inl ⟨dispose_idle h, h⟩
  · cases hx : g.effects[e]? with
    | none => exact absurd (fun x hx' => by simp [hx] at hx') h
    | some x =>
      have hd : x.disposed = false := by
        cases hd : x.disposed with
        | false => rfl
        | true => exact absurd (fun y hy => by rw [← Option.some.inj (hx.symm.trans hy), hd]) h
      exact .inr ⟨x, rfl, hd, dispose_eq hx hd⟩

@[simp] theorem dispose_cells : (g.dispose e).cells = g.cells := by
  rcases dispose_cases g e with ⟨h, -⟩ | ⟨x, -, -, h⟩
  · rw [h]
  · rw [h]
    exact releaseAll_cells _

@[simp] theorem dispose_scopes : (g.dispose e).scopes = g.scopes := by
  rcases dispose_cases g e with ⟨h, -⟩ | ⟨x, -, -, h⟩
  · rw [h]
  · rw [h]
    exact releaseAll_scopes _

@[simp] theorem dispose_world : (g.dispose e).world = g.world := by
  rcases dispose_cases g e with ⟨h, -⟩ | ⟨x, -, -, h⟩
  · rw [h]
  · rw [h]
    exact releaseAll_world _

theorem dispose_other {d : EffectId} (hde : e ≠ d) : (g.dispose e).effects[d]? = g.effects[d]? := by
  rcases dispose_cases g e with ⟨h, -⟩ | ⟨x, -, -, h⟩
  · rw [h]
  · rw [h]
    exact List.getElem?_set_ne hde

theorem dispose_self {y : Effect B} (h : (g.dispose e).effects[e]? = some y) :
    y.disposed = true := by
  rcases dispose_cases g e with ⟨he, hd⟩ | ⟨x, hx, -, he⟩
  · rw [he] at h
    exact hd y h
  · rw [he] at h
    have hlt := (List.getElem?_eq_some_iff.1 hx).1
    obtain rfl := Option.some.inj ((List.getElem?_set_self hlt).symm.trans h)
    rfl

theorem Wired.dispose (h : g.Wired mentions follows none) (e : EffectId) :
    (g.dispose e).Wired mentions follows none := by
  rcases dispose_cases g e with ⟨he, -⟩ | ⟨x, hx, -, he⟩
  · rwa [he]
  · have released := (h.except e).releaseAll x.subscriptions (Owns.only h.own hx)
    have set := released.setEffect (x := x) (gone x) (by rwa [releaseAll_effects]) rfl
      (by simp [gone]) (by simp [gone])
    rw [releaseAll_effects] at set
    rw [he]
    have resting : x.running = false := h.resting (by simp) hx
    exact set.include (List.getElem?_set_self (List.getElem?_eq_some_iff.1 hx).1)
      resting (by simp [gone])

theorem Steady.dispose (g : Graph B V W) (e : EffectId) : g.Steady (g.dispose e) := by
  rcases dispose_cases g e with ⟨h, -⟩ | ⟨x, -, -, h⟩
  · rw [h]
    exact .refl g
  · rw [h]
    exact (Steady.releaseAll g x.subscriptions).trans (.of_eq rfl rfl)

@[simp] theorem drop_cells : (g.drop e).cells = g.cells := dispose_cells
@[simp] theorem drop_scopes : (g.drop e).scopes = g.scopes := dispose_scopes
@[simp] theorem drop_world : (g.drop e).world = g.world := dispose_world

theorem drop_effect (g : Graph B V W) (e d : EffectId) : (g.drop e).effects[d]? =
    (g.dispose e).effects[d]?.map fun x => if e = d then { x with owned := false } else x :=
  List.getElem?_modify ..

theorem drop_other {d : EffectId} (hde : e ≠ d) : (g.drop e).effects[d]? = g.effects[d]? := by
  rw [drop_effect, dispose_other hde]
  simp [hde]

theorem drop_self {y : Effect B} (h : (g.drop e).effects[e]? = some y) : y.disposed = true := by
  rw [drop_effect, Option.map_eq_some_iff] at h
  obtain ⟨x, hx, rfl⟩ := h
  have hd := dispose_self hx
  simpa using hd

theorem Wired.drop (h : g.Wired mentions follows none) (e : EffectId) :
    (g.drop e).Wired mentions follows none := by
  have disposed := h.dispose e
  cases hx : (g.dispose e).effects[e]? with
  | none =>
    refine disposed.congr rfl rfl (List.modify_eq_self ?_)
    exact List.getElem?_eq_none_iff.1 hx
  | some x =>
    have hlt := (List.getElem?_eq_some_iff.1 hx).1
    have hd := dispose_self hx
    have set := (disposed.except e).setEffect { x with owned := false } hx rfl (by simp [hd])
      fun l hl => disposed.own hx hl
    have resting : x.running = false := disposed.resting (by simp) hx
    have rest := set.include (List.getElem?_set_self hlt) resting (by simp [hd])
    refine rest.congr rfl rfl (List.ext_getElem? fun d => ?_)
    rw [drop_effect]
    by_cases hde : e = d
    · subst hde
      rw [hx, List.getElem?_set_self hlt]
      simp
    · simp [hde]

theorem Steady.drop (g : Graph B V W) (e : EffectId) : g.Steady (g.drop e) :=
  (Steady.dispose g e).trans (.of_eq rfl rfl)

@[simp] theorem dispose_effects_length : (g.dispose e).effects.length = g.effects.length := by
  rcases dispose_cases g e with ⟨h, -⟩ | ⟨x, -, -, h⟩
  · rw [h]
  · rw [h]
    exact List.length_set ..

@[simp] theorem drop_effects_length : (g.drop e).effects.length = g.effects.length :=
  (List.length_modify ..).trans dispose_effects_length

/-- An effect that is given up runs no longer, and the others run as before. -/
theorem dispose_runs {d : EffectId} {b : B} : (g.dispose e).Runs d b ↔ e ≠ d ∧ g.Runs d b := by
  by_cases hde : e = d
  · subst hde
    refine ⟨?_, fun h => absurd rfl h.1⟩
    rintro ⟨x, hx, hd, -⟩
    rw [dispose_self hx] at hd
    cases hd
  · simp [Runs, dispose_other hde, hde]

theorem drop_runs {d : EffectId} {b : B} : (g.drop e).Runs d b ↔ e ≠ d ∧ g.Runs d b := by
  by_cases hde : e = d
  · subst hde
    refine ⟨?_, fun h => absurd rfl h.1⟩
    rintro ⟨x, hx, hd, -⟩
    rw [drop_self hx] at hd
    cases hd
  · simp [Runs, drop_other hde, hde]

end Dispose

theorem Wired.addEffect (h : g.Wired mentions follows none) (body : B)
    (hm : ∀ c ∈ mentions body, c < g.cells.length) :
    (g.addEffect body).2.Wired mentions follows (some g.effects.length) := by
  have old {d : EffectId} (hd : d < g.effects.length) :
      (g.addEffect body).2.effects[d]? = g.effects[d]? := List.getElem?_append_left hd
  have new : (g.addEffect body).2.effects[g.effects.length]? = some { body := body } := by
    simp [Graph.addEffect]
  have cases {d : EffectId} {z : Effect B} (hz : (g.addEffect body).2.effects[d]? = some z) :
      g.effects[d]? = some z ∨ d = g.effects.length ∧ z = { body := body } := by
    by_cases hd : d < g.effects.length
    · exact .inl ((old hd).symm.trans hz)
    · have hlt := (List.getElem?_eq_some_iff.1 hz).1
      simp only [Graph.addEffect, List.length_append, List.length_singleton] at hlt
      obtain rfl : d = g.effects.length :=
        Nat.le_antisymm (Nat.le_of_lt_succ hlt) (Nat.le_of_not_lt hd)
      exact .inr ⟨rfl, (Option.some.inj (new.symm.trans hz)).symm⟩
  constructor
  case slot_lt => exact h.slot_lt
  case target_lt =>
    intro l y e epoch hy hr
    simp only [Graph.addEffect, List.length_append, List.length_singleton]
    exact Nat.lt_succ_of_lt (h.target_lt hy hr)
  case own =>
    intro d z l hz hl
    rcases cases hz with hz | ⟨-, rfl⟩
    · exact h.own hz hl
    · simp at hl
  case resting =>
    intro d z ho hz
    rcases cases hz with hz | ⟨-, rfl⟩
    · exact h.resting (by simp) hz
    · rfl
  case owned =>
    intro d z hz hd
    rcases cases hz with hz | ⟨-, rfl⟩
    · exact h.owned hz hd
    · rfl
  case known =>
    intro d z c hz hd hc
    rcases cases hz with hz | ⟨-, rfl⟩
    · exact h.known hz hd hc
    · exact hm c hc
  case hooked =>
    intro d z c ho hz hd hc
    rcases cases hz with hz | ⟨rfl, -⟩
    · exact h.hooked (by simp) hz hd hc
    · exact absurd rfl ho

/-! A cell gets a value. -/

/-- Two states that differ in how often their listeners are captured, and in what they report. -/
structure Alike (g g' : Graph B V W) : Prop where
  cells : g'.cells = g.cells
  effects : g'.effects = g.effects
  scopes : g'.scopes = g.scopes
  world : g'.world = g.world
  listener : ∀ l : ListenerId, g'.listeners[l]?.map (fun y => (y.reaction, y.guarded)) =
    g.listeners[l]?.map fun y => (y.reaction, y.guarded)

namespace Alike

theorem refl (g : Graph B V W) : g.Alike g := ⟨rfl, rfl, rfl, rfl, fun _ => rfl⟩

theorem trans (h : g.Alike g') (h' : g'.Alike g'') : g.Alike g'' where
  cells := h'.cells.trans h.cells
  effects := h'.effects.trans h.effects
  scopes := h'.scopes.trans h.scopes
  world := h'.world.trans h.world
  listener := fun l => (h'.listener l).trans (h.listener l)

theorem foldl {f : Graph B V W → ListenerId → Graph B V W}
    (hf : ∀ (g : Graph B V W) l, g.Alike (f g l)) (ls : List ListenerId) (g : Graph B V W) :
    g.Alike (ls.foldl f g) := by
  induction ls generalizing g with
  | nil => exact .refl g
  | cons l ls ih => exact (hf g l).trans (ih (f g l))

theorem pin (g : Graph B V W) (l : ListenerId) : g.Alike (g.pin l) := by
  refine ⟨rfl, rfl, rfl, rfl, fun k => ?_⟩
  simp only [Graph.pin, List.getElem?_modify]
  cases g.listeners[k]? with
  | none => rfl
  | some y => by_cases hk : l = k <;> simp [hk]

theorem unpin (g : Graph B V W) (l : ListenerId) : g.Alike (g.unpin l) := by
  refine ⟨rfl, rfl, rfl, rfl, fun k => ?_⟩
  simp only [Graph.unpin, List.getElem?_modify]
  cases g.listeners[k]? with
  | none => rfl
  | some y => by_cases hk : l = k <;> simp [hk]

theorem listener_some (h : g.Alike g') {l : ListenerId} {y : Listener B}
    (hy : g.listeners[l]? = some y) :
    ∃ y', g'.listeners[l]? = some y' ∧ y'.reaction = y.reaction ∧ y'.guarded = y.guarded := by
  have hl := h.listener l
  rw [hy, Option.map_some, Option.map_eq_some_iff] at hl
  obtain ⟨y', hy', hr⟩ := hl
  exact ⟨y', hy', congrArg Prod.fst hr, congrArg Prod.snd hr⟩

theorem symm (h : g.Alike g') : g'.Alike g :=
  ⟨h.cells.symm, h.effects.symm, h.scopes.symm, h.world.symm, fun l => (h.listener l).symm⟩

theorem steady (h : g.Alike g') : g.Steady g' where
  value := by simp [h.cells]
  reaction := by
    intro l y hy
    obtain ⟨y', hy', hr, -⟩ := h.listener_some hy
    exact ⟨y', hy', hr⟩

theorem length_le (h : g.Alike g') : g.listeners.length ≤ g'.listeners.length := by
  refine Nat.le_of_not_lt fun hlt => ?_
  obtain ⟨y', hy', -⟩ := h.listener_some (List.getElem?_eq_getElem hlt)
  exact Nat.lt_irrefl _ (List.getElem?_eq_some_iff.1 hy').1

theorem hooked (h : g.Alike g') {e epoch : Nat} {c : CellId} (hk : g.Hooked e epoch c) :
    g'.Hooked e epoch c := by
  obtain ⟨x, l, y, hx, hl, hy, hr, hg⟩ := hk
  obtain ⟨y', hy', hr', hg'⟩ := h.listener_some hy
  exact ⟨x, l, y', by rw [h.cells, hx], hl, hy', hr'.trans hr, hg'.trans hg⟩

theorem wired (h : g.Alike g') (hw : g.Wired mentions follows out) :
    g'.Wired mentions follows out where
  slot_lt := by
    intro c x l hx hl
    rw [h.cells] at hx
    exact Nat.lt_of_lt_of_le (hw.slot_lt hx hl) h.length_le
  target_lt := by
    intro l y e epoch hy hr
    obtain ⟨y', hy', hr', -⟩ := h.symm.listener_some hy
    rw [h.effects]
    exact hw.target_lt hy' (hr'.trans hr)
  own := by
    intro e x l hx hl
    rw [h.effects] at hx
    obtain ⟨y, epoch, hy, hr⟩ := hw.own hx hl
    obtain ⟨y', hy', hr', -⟩ := h.listener_some hy
    exact ⟨y', epoch, hy', hr'.trans hr⟩
  resting := by
    intro e x ho hx
    rw [h.effects] at hx
    exact hw.resting ho hx
  owned := by
    intro e x hx hd
    rw [h.effects] at hx
    exact hw.owned hx hd
  known := by
    intro e x c hx hd hc
    rw [h.effects] at hx
    rw [h.cells]
    exact hw.known hx hd hc
  hooked := by
    intro e x c ho hx hd hc
    rw [h.effects] at hx
    exact h.hooked (hw.hooked ho hx hd hc)

end Alike

def withCell (g : Graph B V W) (c : CellId) (x : Cell V) : Graph B V W :=
  { g with cells := g.cells.set c x }

theorem withCell_cell {c d : CellId} {x : Cell V} (hc : c < g.cells.length) :
    (g.withCell c x).cells[d]? = if c = d then some x else g.cells[d]? := by
  by_cases hcd : c = d
  · subst hcd
    simp [withCell, hc]
  · simp [withCell, hcd]

/-- A cell that loses none but dead listeners leaves all effects hooked. -/
theorem Hooked.withCell {e epoch : Nat} {c d : CellId} {x x' : Cell V} (h : g.Hooked e epoch d)
    (hx : g.cells[c]? = some x) (hs : x'.slots = x.slots.filter g.isLive) :
    (g.withCell c x').Hooked e epoch d := by
  have hlt := (List.getElem?_eq_some_iff.1 hx).1
  obtain ⟨w, l, y, hw, hl, hy, hr, hg⟩ := h
  by_cases hcd : c = d
  · subst hcd
    obtain rfl := Option.some.inj (hx.symm.trans hw)
    refine ⟨x', l, y, by rw [withCell_cell hlt, if_pos rfl], ?_, hy, hr, hg⟩
    rw [hs]
    exact List.mem_filter.2 ⟨hl, by simp [isLive, hy, Listener.isLive, hg]⟩
  · exact ⟨w, l, y, by rw [withCell_cell hlt, if_neg hcd, hw], hl, hy, hr, hg⟩

theorem Wired.withCell {c : CellId} {x x' : Cell V} (h : g.Wired mentions follows out)
    (hx : g.cells[c]? = some x) (hs : x'.slots = x.slots.filter g.isLive) :
    (g.withCell c x').Wired mentions follows out := by
  have hlt := (List.getElem?_eq_some_iff.1 hx).1
  constructor
  case slot_lt =>
    intro d z l hz hl
    rw [withCell_cell hlt] at hz
    split at hz
    · cases hz
      rw [hs] at hl
      exact h.slot_lt hx (List.mem_filter.1 hl).1
    · exact h.slot_lt hz hl
  case target_lt => exact h.target_lt
  case own => exact h.own
  case resting => exact h.resting
  case owned => exact h.owned
  case known =>
    intro e z d hz hd hm
    simpa [Graph.withCell] using h.known hz hd hm
  case hooked => exact fun ho hz hd hf => (h.hooked ho hz hd hf).withCell hx hs

def liveSlots (g : Graph B V W) (c : CellId) : List ListenerId :=
  ((g.cells[c]?.map Cell.slots).getD []).filter g.isLive

/-- An effect that is hooked to a cell stands among the listeners that a change of the cell
calls. -/
theorem Hooked.captured {e epoch : Nat} {c : CellId} (h : g.Hooked e epoch c) :
    ∃ l ∈ g.liveSlots c, ∃ y, g.listeners[l]? = some y ∧ y.reaction = .rerun e epoch := by
  obtain ⟨x, l, y, hx, hl, hy, hr, hg⟩ := h
  refine ⟨l, ?_, y, hy, hr⟩
  simp only [liveSlots, hx, Option.map_some, Option.getD_some, List.mem_filter]
  exact ⟨hl, by simp [isLive, hy, Listener.isLive, hg]⟩

/-- What a change of a cell gives: the cell has the value and its living listeners, which are
captured. -/
theorem assign_changed {same : V → V → Bool} {c : CellId} {v : V} {x : Cell V}
    (hx : g.cells[c]? = some x) (hs : same x.value v = false) :
    ∃ g', g.assign same c v = some (g.liveSlots c, g') ∧
      (g.withCell c ⟨v, x.version + 1, g.liveSlots c⟩).Alike g' := by
  refine ⟨_, by simp [Graph.assign, hx, hs, liveSlots]; rfl, ?_⟩
  refine Alike.trans ?_ (Alike.foldl Alike.pin _ _)
  exact ⟨by simp [withCell, liveSlots, hx], rfl, rfl, rfl, fun _ => rfl⟩

theorem assign_same {same : V → V → Bool} {c : CellId} {v : V} {x : Cell V}
    (hx : g.cells[c]? = some x) (hs : same x.value v = true) :
    g.assign same c v = some ([], g) := by
  simp [Graph.assign, hx, hs]

end StoryPreview.Reactive.Graph
