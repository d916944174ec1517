import Mathlib.Data.List.Forall2
import StoryPreview.Proofs.Reactive.Audience
import StoryPreview.Proofs.Reactive.Freshness
/-!
Which listeners attend to a cell. An effect that rests is fastened to what its latest run has read:
to each such cell by one listener, and by no other. Starting or disposing an effect unfastens it,
and the end of a run fastens it anew.
-/
namespace StoryPreview.Reactive.Graph
variable {B V W : Type} {g g' : Graph B V W} {l : ListenerId} {c d : CellId} {e : EffectId}
    {x : Effect B}
variable {r r' : Reaction B}

/-! ### Slots -/

theorem slotsOf_congr (h : g'.cells = g.cells) : g'.slotsOf = g.slotsOf := by
  funext c
  rw [slotsOf, slotsOf, h]

theorem slotsOf_addCell (g : Graph B V W) (v : V) : (g.addCell v).2.slotsOf = g.slotsOf := by
  funext c
  simp only [slotsOf, addCell, List.getElem?_append]
  split
  · rfl
  · rename_i hc
    rw [List.getElem?_eq_none (Nat.le_of_not_lt hc)]
    cases h : c - g.cells.length <;> simp

theorem slotsOf_withCell {z : Cell V} (hc : c < g.cells.length) :
    (g.withCell c z).slotsOf d = if c = d then z.slots else g.slotsOf d := by
  rw [slotsOf, withCell_cell hc]
  split <;> rfl

theorem slotsOf_releaseAll (ls : List ListenerId) : (g.releaseAll ls).slotsOf = g.slotsOf :=
  slotsOf_congr (releaseAll_cells ls)

structure Ordered (g : Graph B V W) : Prop where
  slot_lt : ∀ {l : ListenerId} {c : CellId}, l ∈ g.slotsOf c → l < g.listeners.length
  sorted : ∀ c, (g.slotsOf c).Pairwise (· < ·)

theorem Ordered.thin (h : g.Ordered) (slots : ∀ c, (g'.slotsOf c).Sublist (g.slotsOf c))
    (length : g.listeners.length ≤ g'.listeners.length) : g'.Ordered where
  slot_lt := fun hl => Nat.lt_of_lt_of_le (h.slot_lt ((slots _).subset hl)) length
  sorted := fun c => (h.sorted c).sublist (slots c)

theorem Ordered.releases (h : g.Ordered) (ls : List ListenerId) (cells : g'.cells = g.cells)
    (listeners : g'.listeners = (g.releaseAll ls).listeners) : g'.Ordered :=
  h.thin (fun c => by rw [slotsOf_congr cells])
    (Nat.le_of_eq (by rw [listeners, length_releaseAll]))

theorem Ordered.start (h : g.Ordered) (e : EffectId) (x : Effect B) : (g.start e x).Ordered :=
  h.releases x.subscriptions start_cells rfl

theorem Ordered.subscribe (h : g.Ordered) (c : CellId) (r : Reaction B) :
    (g.subscribe c r).2.Ordered where
  slot_lt := by
    intro l d hl
    rw [slotsOf_subscribe, List.mem_append] at hl
    rw [subscribe_length]
    rcases hl with hl | hl
    · exact Nat.lt_succ_of_lt (h.slot_lt hl)
    · split at hl
      · rw [List.mem_singleton.1 hl]
        exact Nat.lt_succ_self _
      · cases hl
  sorted := by
    intro d
    rw [slotsOf_subscribe, List.pairwise_append]
    refine ⟨h.sorted d, by split <;> simp, fun l hl k hk => ?_⟩
    split at hk
    · rw [List.mem_singleton.1 hk]
      exact h.slot_lt hl
    · cases hk

theorem Ordered.attach (h : g.Ordered) (e epoch : Nat) (cs : List CellId) :
    (g.attach e epoch cs).2.Ordered := by
  induction cs generalizing g with
  | nil => exact h
  | cons c cs ih => exact ih (h.subscribe c _)

/-! ### Listeners that attend -/

def Attends (g : Graph B V W) (l : ListenerId) (c : CellId) (r : Reaction B) : Prop :=
  l ∈ g.slotsOf c ∧ g.listeners[l]?.map (fun y => (y.reaction, y.guarded)) = some (r, true)

theorem Attends.target {epoch : Nat} (h : g.Attends l c (.rerun e epoch)) :
    g.Targets l e epoch := by
  obtain ⟨y, hy, heq⟩ := Option.map_eq_some_iff.1 h.2
  exact ⟨y, hy, congrArg Prod.fst heq⟩

theorem attends_congr (slots : g'.slotsOf = g.slotsOf)
    (listener : ∀ l : ListenerId, g'.listeners[l]?.map (fun y => (y.reaction, y.guarded)) =
      g.listeners[l]?.map fun y => (y.reaction, y.guarded)) :
      g'.Attends l c r ↔ g.Attends l c r := by
  rw [Attends, Attends, slots, listener]

theorem attends_releaseAll (ls : List ListenerId) : (g.releaseAll ls).Attends l c r ↔
    g.Attends l c r ∧ l ∉ ls := by
  rw [Attends, Attends, slotsOf_releaseAll, releaseAll_listener, Option.map_map, and_assoc]
  refine and_congr_right fun _ => ?_
  cases g.listeners[l]? with
  | none => simp
  | some y => by_cases hl : l ∈ ls <;> simp [hl]

theorem attends_subscribe (h : g.Ordered) : (g.subscribe c r).2.Attends l d r' ↔
    g.Attends l d r' ∨ l = g.listeners.length ∧ d = c ∧ d < g.cells.length ∧ r' = r := by
  rw [Attends, Attends, slotsOf_subscribe, List.mem_append]
  by_cases hl : l < g.listeners.length
  · have ne : l ≠ g.listeners.length := Nat.ne_of_lt hl
    rw [subscribe_listener_old c r hl]
    simp [ne]
  · have out : l ∉ g.slotsOf d := fun hm => hl (h.slot_lt hm)
    by_cases new : l = g.listeners.length
    · subst new
      rw [subscribe_listener_new]
      simp [out, eq_comm, and_assoc]
    · simp [out, new]

section Attach
variable {epoch : Nat} {cs : List CellId}

theorem Attends.attach (h : g.Attends l d r) (ordered : g.Ordered) :
    (g.attach e epoch cs).2.Attends l d r := by
  induction cs generalizing g with
  | nil => exact h
  | cons c cs ih => exact ih ((attends_subscribe ordered).2 (.inl h)) (ordered.subscribe c _)

/-- An effect that attaches itself has a listener for each cell. -/
theorem attach_attends (ordered : g.Ordered) (known : ∀ c ∈ cs, c < g.cells.length)
    (h : (l, d) ∈ (g.attach e epoch cs).1.zip cs) :
    (g.attach e epoch cs).2.Attends l d (.rerun e epoch) := by
  induction cs generalizing g with
  | nil => cases h
  | cons c cs ih =>
    obtain ⟨hc, known⟩ := List.forall_mem_cons.1 known
    have next := ordered.subscribe c (.rerun e epoch)
    rcases List.mem_cons.1 h with first | rest
    · obtain ⟨rfl, rfl⟩ := Prod.mk.inj first
      have attends : (g.subscribe d (.rerun e epoch)).2.Attends g.listeners.length
          d (.rerun e epoch) :=
        (attends_subscribe ordered).2 (.inr ⟨rfl, rfl, hc, rfl⟩)
      exact attends.attach next
    · exact ih next (fun k hk => Nat.lt_of_lt_of_eq (known k hk)
        (subscribe_cells_length c _).symm) rest

/-- Who attends afterwards has attended before, or is one of the new listeners. -/
theorem Attends.of_attach (ordered : g.Ordered) (h : (g.attach e epoch cs).2.Attends l d r) :
    g.Attends l d r ∨ r = .rerun e epoch ∧ (l, d) ∈ (g.attach e epoch cs).1.zip cs := by
  induction cs generalizing g with
  | nil => exact .inl h
  | cons c cs ih =>
    rcases ih (ordered.subscribe c (.rerun e epoch)) h with old | ⟨hr, hl⟩
    · rcases (attends_subscribe ordered).1 old with old | ⟨rfl, rfl, -, hr⟩
      · exact .inl old
      · exact .inr ⟨hr, List.mem_cons_self⟩
    · exact .inr ⟨hr, List.mem_cons_of_mem _ hl⟩

theorem mem_slotsOf_attach (h : l ∈ (g.attach e epoch cs).2.slotsOf d) :
    l ∈ g.slotsOf d ∨ d ∈ cs ∧ g.listeners.length ≤ l := by
  induction cs generalizing g with
  | nil => exact .inl h
  | cons c cs ih =>
    rcases ih (g := (g.subscribe c (.rerun e epoch)).2) h with old | ⟨hd, hl⟩
    · rw [slotsOf_subscribe, List.mem_append] at old
      rcases old with old | new
      · exact .inl old
      · split at new
        · rename_i hc
          exact .inr ⟨hc.1 ▸ List.mem_cons_self, Nat.le_of_eq (List.mem_singleton.1 new).symm⟩
        · cases new
    · rw [subscribe_length] at hl
      exact .inr ⟨List.mem_cons_of_mem _ hd, Nat.le_of_succ_le hl⟩

theorem Targets.of_attach {k : Nat} (h : (g.attach e epoch cs).2.Targets l d k) :
    g.Targets l d k ∨ g.listeners.length ≤ l ∧ d = e ∧ k = epoch := by
  obtain ⟨y, hy, hr⟩ := h
  rw [attach_listeners] at hy
  by_cases hl : l < g.listeners.length
  · rw [List.getElem?_append_left hl] at hy
    exact .inl ⟨y, hy, hr⟩
  · have hle := Nat.le_of_not_lt hl
    rw [List.getElem?_append_right hle] at hy
    obtain ⟨-, rfl⟩ := List.mem_replicate.1 (List.mem_of_getElem? hy)
    cases hr
    exact .inr ⟨hle, rfl, rfl⟩

end Attach

/-! ### The end of a run -/

theorem finish_pops (g : Graph B V W) (e : EffectId) : (g.finish e).scopes = g.scopes.tail := by
  rcases g.finish_cases e with ⟨effects, -, finished⟩ | ⟨x, hx, undisposed⟩
  · rw [finished, pop]
  · exact finish_scopes hx undisposed

theorem finish_effects_length (g : Graph B V W) (e : EffectId) :
    (g.finish e).effects.length = g.effects.length := by
  rcases g.finish_cases e with ⟨effects, length, finished⟩ | ⟨x, hx, undisposed⟩
  · rw [finished]
    exact length
  · obtain ⟨ls, effects⟩ := finish_effects hx undisposed
    rw [effects]
    exact List.length_set ..

theorem Ordered.finish (h : g.Ordered) (e : EffectId) : (g.finish e).Ordered := by
  have popped : g.pop.Ordered := h.thin (fun _ => .refl _) (Nat.le_refl _)
  rcases g.finish_cases e with ⟨effects, -, finished⟩ | ⟨x, hx, undisposed⟩
  · rw [finished]
    exact popped.thin (fun _ => .refl _) (Nat.le_refl _)
  · rw [finish_eq hx undisposed]
    exact (popped.attach e x.epoch g.reads).thin (fun _ => .refl _) (Nat.le_refl _)

theorem finish_cells_length (g : Graph B V W) (e : EffectId) :
    (g.finish e).cells.length = g.cells.length := by
  rcases g.finish_cases e with ⟨effects, -, finished⟩ | ⟨x, hx, undisposed⟩
  · rw [finished, pop]
  · exact (Steady.finish hx undisposed).length_eq

/-! ### Effects that are given up -/

structure Retires (e : EffectId) (x x' : Effect B) (g g' : Graph B V W) : Prop where
  cells : g'.cells = g.cells
  listeners : g'.listeners = (g.releaseAll x.subscriptions).listeners
  effects : g'.effects = g.effects.set e x'
  disposed : x'.disposed = true
  bare : x'.subscriptions = []
  dependencies : x'.dependencies = 0
  running : x'.running = x.running
  epoch : x'.epoch = x.epoch

theorem dispose_retires (hx : g.effects[e]? = some x)
    (before : x.disposed = true → x.subscriptions = [] ∧ x.dependencies = 0) :
    ∃ x', Retires e x x' g (g.dispose e) := by
  by_cases disposed : x.disposed = true
  · obtain ⟨bare, dependencies⟩ := before disposed
    have idle : g.dispose e = g := dispose_idle fun z hz =>
      Option.some.inj (hx.symm.trans hz) ▸ disposed
    have kept : g.effects.set e x = g.effects := by
      obtain ⟨hlt, rfl⟩ := List.getElem?_eq_some_iff.1 hx
      exact List.set_getElem_self hlt
    exact ⟨x, congrArg _ idle, by rw [idle, bare]; rfl, by rw [idle, kept], disposed, bare,
      dependencies, rfl, rfl⟩
  · have unfolded := dispose_eq hx (Bool.eq_false_iff.2 disposed)
    exact ⟨Graph.gone x, dispose_cells, by rw [unfolded], by rw [unfolded], rfl, rfl, rfl, rfl, rfl⟩

theorem drop_retires (hx : g.effects[e]? = some x)
    (before : x.disposed = true → x.subscriptions = [] ∧ x.dependencies = 0) :
    ∃ x', Retires e x x' g (g.drop e) := by
  obtain ⟨z, h⟩ := dispose_retires hx before
  refine ⟨{ z with owned := false }, h.cells, h.listeners, ?_, h.disposed, h.bare, h.dependencies,
    h.running, h.epoch⟩
  have hlt := (List.getElem?_eq_some_iff.1 hx).1
  refine List.ext_getElem? fun d => ?_
  rw [drop_effect, h.effects]
  by_cases hed : e = d
  · subst hed
    simp [hlt]
  · rw [List.getElem?_set_ne hed, List.getElem?_set_ne hed]
    simp [hed]

theorem dispose_unborn (hx : g.effects[e]? = none) : g.dispose e = g :=
  dispose_idle fun _ hz => absurd (hx.symm.trans hz) (by simp)

theorem drop_unborn (hx : g.effects[e]? = none) : g.drop e = g := by
  rw [Graph.drop, dispose_unborn hx]
  exact congrArg (fun effects => { g with effects })
    (List.modify_eq_self (List.getElem?_eq_none_iff.1 hx))

structure GivesUp (e : EffectId) (g g' : Graph B V W) : Prop where
  retires : ∀ {x : Effect B}, g.effects[e]? = some x →
    (x.disposed = true → x.subscriptions = [] ∧ x.dependencies = 0) → ∃ x', Retires e x x' g g'
  unborn : g.effects[e]? = none → g' = g

theorem dispose_givesUp (g : Graph B V W) (e : EffectId) : g.GivesUp e (g.dispose e) :=
  ⟨dispose_retires, dispose_unborn⟩

theorem drop_givesUp (g : Graph B V W) (e : EffectId) : g.GivesUp e (g.drop e) :=
  ⟨drop_retires, drop_unborn⟩

theorem getElem?_set_cases {α : Type} {as : List α} {i j : Nat} {a b : α}
    (h : (as.set i a)[j]? = some b) : j = i ∧ b = a ∨ as[j]? = some b ∧ i ≠ j := by
  by_cases hij : i = j
  · subst hij
    have hlt : i < as.length := by simpa using (List.getElem?_eq_some_iff.1 h).1
    exact .inl ⟨rfl, Option.some.inj (h.symm.trans (List.getElem?_set_self hlt))⟩
  · exact .inr ⟨(List.getElem?_set_ne hij).symm.trans h, hij⟩

/-! ### Effects that are fastened -/

/-- A listener makes an effect run again if it is called now. -/
def Current (g : Graph B V W) (l : ListenerId) (e : EffectId) : Prop :=
  ∃ x, g.effects[e]? = some x ∧ x.disposed = false ∧ g.Targets l e x.epoch

/-- Every effect that rests has one listener for each cell that its latest run has read, and no
others; one that runs, or is disposed, has none. -/
structure Fastened (g : Graph B V W) (latest : EffectId → List CellId) : Prop where
  length : ∀ {e : EffectId} {x : Effect B}, g.effects[e]? = some x → x.disposed = false →
    x.running = false → x.subscriptions.length = (latest e).length
  loose : ∀ {e : EffectId} {x : Effect B}, g.effects[e]? = some x → x.disposed = true ∨
    x.running = true → x.subscriptions = []
  links : ∀ {e : EffectId} {x : Effect B} {l : ListenerId} {c : CellId}, g.effects[e]? = some x →
    (l, c) ∈ x.subscriptions.zip (latest e) → g.Attends l c (.rerun e x.epoch)
  own : ∀ {l : ListenerId} {c : CellId} {e epoch : Nat}, g.Attends l c (.rerun e epoch) →
    ∃ x, g.effects[e]? = some x ∧ (l, c) ∈ x.subscriptions.zip (latest e)
  epoch : ∀ {l : ListenerId} {e epoch : Nat}, g.Targets l e epoch →
    ∃ x, g.effects[e]? = some x ∧ epoch ≤ x.epoch ∧ (x.running = true → epoch < x.epoch)
  read : ∀ {l : ListenerId} {c : CellId} {e : EffectId}, l ∈ g.slotsOf c → g.Current l e →
    c ∈ latest e
  nodup : ∀ e, (latest e).Nodup
  unborn : ∀ {e : EffectId}, g.effects[e]? = none → latest e = []

structure Idle (g g' : Graph B V W) : Prop where
  slots : ∀ c, (g'.slotsOf c).Sublist (g.slotsOf c)
  attends : ∀ {l : ListenerId} {c : CellId} {r : Reaction B}, g'.Attends l c r ↔ g.Attends l c r
  reaction : ∀ l : ListenerId, g'.listeners[l]?.map Listener.reaction =
    g.listeners[l]?.map Listener.reaction
  effects : g'.effects = g.effects

structure Leaves (g g' : Graph B V W) : Prop where
  slots : ∀ {l : ListenerId} {c : CellId} {e epoch : Nat}, l ∈ g'.slotsOf c → g'.Targets l e epoch →
    l ∈ g.slotsOf c
  attends : ∀ {l : ListenerId} {c : CellId} {e epoch : Nat},
    g'.Attends l c (.rerun e epoch) ↔ g.Attends l c (.rerun e epoch)
  targets : ∀ {l : ListenerId} {e epoch : Nat}, g'.Targets l e epoch ↔ g.Targets l e epoch
  effects : g'.effects = g.effects

theorem targets_iff {epoch : Nat} :
    g.Targets l e epoch ↔ g.listeners[l]?.map Listener.reaction = some (.rerun e epoch) := by
  rw [Option.map_eq_some_iff]
  rfl

theorem targets_releaseAll (ls : List ListenerId) {epoch : Nat} :
    (g.releaseAll ls).Targets l e epoch ↔ g.Targets l e epoch := by
  rw [targets_iff, targets_iff, releaseAll_listener, Option.map_map]
  cases g.listeners[l]? with
  | none => rfl
  | some y => simp only [Option.map_some, Function.comp_apply]; split <;> rfl

theorem targets_congr {epoch : Nat} (listeners : g'.listeners = g.listeners) :
    g'.Targets l e epoch ↔ g.Targets l e epoch := by
  rw [targets_iff, targets_iff, listeners]

theorem Leaves.current (h : g.Leaves g') : g'.Current l e ↔ g.Current l e := by
  simp only [Current, h.effects, h.targets]

theorem Idle.leaves (h : g.Idle g') : g.Leaves g' where
  slots := fun hl _ => (h.slots _).subset hl
  attends := h.attends
  targets := by
    intro l e epoch
    rw [targets_iff, targets_iff, h.reaction]
  effects := h.effects

theorem Ordered.idle (h : g.Ordered) (idle : g.Idle g') : g'.Ordered := by
  refine h.thin idle.slots (Nat.le_of_not_lt fun hlt => ?_)
  have lost := idle.reaction g'.listeners.length
  rw [List.getElem?_eq_none (Nat.le_refl _), List.getElem?_eq_getElem hlt] at lost
  cases lost

namespace Idle

theorem of_eq (cells : g'.cells = g.cells) (listeners : g'.listeners = g.listeners)
    (effects : g'.effects = g.effects) : g.Idle g' where
  slots := fun c => by rw [slotsOf_congr cells]
  attends := attends_congr (slotsOf_congr cells) fun l => by rw [listeners]
  reaction := fun l => by rw [listeners]
  effects := effects

theorem addCell (g : Graph B V W) (v : V) : g.Idle (g.addCell v).2 where
  slots := fun c => by rw [slotsOf_addCell]
  attends := attends_congr (slotsOf_addCell g v) fun _ => rfl
  reaction := fun _ => rfl
  effects := rfl

theorem alike (h : g.Alike g') : g.Idle g' where
  slots := fun c => by rw [slotsOf_congr h.cells]
  attends := attends_congr (slotsOf_congr h.cells) h.listener
  reaction :=
    fun l => by
    simpa [Option.map_map, Function.comp_def] using congrArg (Option.map Prod.fst) (h.listener l)
  effects := h.effects

theorem trans {g'' : Graph B V W} (h : g.Idle g') (h' : g'.Idle g'') : g.Idle g'' where
  slots := fun c => (h'.slots c).trans (h.slots c)
  attends := h'.attends.trans h.attends
  reaction := fun l => (h'.reaction l).trans (h.reaction l)
  effects := h'.effects.trans h.effects

/-- A cell gets a value, and its dead listeners are left out. -/
theorem withCell (g : Graph B V W) (hc : c < g.cells.length) (v : V) (version : Nat) :
    g.Idle (g.withCell c ⟨v, version, g.liveSlots c⟩) where
  slots := by
    intro d
    rw [slotsOf_withCell hc]
    split
    · rename_i h
      exact h ▸ List.filter_sublist
    · exact .refl _
  attends := by
    intro l d r
    rw [Attends, Attends, slotsOf_withCell hc]
    refine and_congr_left fun hl => ?_
    split
    · rename_i h
      subst h
      obtain ⟨y, hy, heq⟩ := Option.map_eq_some_iff.1 hl
      have hy : g.listeners[l]? = some y := hy
      have guarded : y.guarded = true := congrArg Prod.snd heq
      have live : g.isLive l = true := by simp [isLive, hy, Listener.isLive, guarded]
      exact List.mem_filter.trans (and_iff_left live)
    · exact Iff.rfl
  reaction := fun _ => rfl
  effects := rfl

end Idle

theorem Leaves.subscribe (ordered : g.Ordered) (c : CellId) (body : B) :
    g.Leaves (g.subscribe c (.call body)).2 where
  slots := by
    intro l d e epoch hl ht
    rw [slotsOf_subscribe, List.mem_append] at hl
    refine hl.resolve_right fun hl => ?_
    split at hl
    · obtain rfl := List.mem_singleton.1 hl
      obtain ⟨y, hy, hr⟩ := ht
      rw [subscribe_listener_new] at hy
      obtain rfl := Option.some.inj hy
      cases hr
    · cases hl
  attends := by
    intro l d e epoch
    rw [attends_subscribe ordered]
    simp
  targets := by
    intro l e epoch
    rw [targets_iff, targets_iff]
    by_cases hl : l < g.listeners.length
    · rw [subscribe_listener_old c _ hl]
    · rw [List.getElem?_eq_none (Nat.le_of_not_lt hl)]
      by_cases new : l = g.listeners.length
      · subst new
        rw [subscribe_listener_new]
        simp
      · have out : g.listeners.length < l := Nat.lt_of_le_of_ne (Nat.le_of_not_lt hl) (Ne.symm new)
        rw [List.getElem?_eq_none (by rw [subscribe_length]; exact out)]
  effects := rfl

theorem Leaves.release (plain : g.Plain l) : g.Leaves (g.release l) where
  slots := fun hl _ => hl
  attends := by
    intro k d e epoch
    refine (attends_releaseAll [l]).trans (and_iff_left_of_imp fun attends hk => ?_)
    obtain rfl := List.mem_singleton.1 hk
    obtain ⟨y, b, hy, hb⟩ := plain
    obtain ⟨z, hz, hr⟩ := attends.target
    obtain rfl := Option.some.inj (hy.symm.trans hz)
    cases hb.symm.trans hr
  targets := targets_releaseAll [l]
  effects := rfl

theorem Targets.unique {k k' : Nat} (h : g.Targets l e k) (h' : g.Targets l d k') :
    e = d ∧ k = k' := by
  obtain ⟨y, hy, hr⟩ := h
  obtain ⟨y', hy', hr'⟩ := h'
  obtain rfl := Option.some.inj (hy.symm.trans hy')
  exact Reaction.rerun.inj (hr.symm.trans hr')

namespace Fastened
variable {latest : EffectId → List CellId}

/-- What an effect is subscribed to makes it run again. -/
theorem target (h : g.Fastened latest) (hx : g.effects[e]? = some x) (hl : l ∈ x.subscriptions) :
    g.Targets l e x.epoch := by
  by_cases off : x.disposed = true ∨ x.running = true
  · rw [h.loose hx off] at hl
    cases hl
  · obtain ⟨undisposed, resting⟩ := not_or.1 off
    have length := h.length hx (Bool.eq_false_iff.2 undisposed) (Bool.eq_false_iff.2 resting)
    obtain ⟨i, hi, rfl⟩ := List.mem_iff_getElem.1 hl
    have pair : (x.subscriptions[i], (latest e)[i]) ∈ x.subscriptions.zip (latest e) := by
      rw [← List.getElem_zip (h := by simp [← length, hi])]
      exact List.getElem_mem _
    exact (h.links hx pair).target

theorem leaves (h : g.Fastened latest) (leaves : g.Leaves g') : g'.Fastened latest where
  length := fun hx => h.length (leaves.effects ▸ hx)
  loose := fun hx => h.loose (leaves.effects ▸ hx)
  links := fun hx hp => leaves.attends.2 (h.links (leaves.effects ▸ hx) hp)
  own := fun ha => by
    rw [leaves.effects]
    exact h.own (leaves.attends.1 ha)
  epoch := fun ht => by
    rw [leaves.effects]
    exact h.epoch (leaves.targets.1 ht)
  read := fun hl hc => h.read (leaves.slots hl hc.choose_spec.2.2) (leaves.current.1 hc)
  nodup := h.nodup
  unborn := fun hx => h.unborn (leaves.effects ▸ hx)

/-- The effect goes on to a run, or is disposed, and gives its listeners up. -/
theorem retire (h : g.Fastened latest) (hx : g.effects[e]? = some x) {x' : Effect B}
    (cells : g'.cells = g.cells)
    (listeners : g'.listeners = (g.releaseAll x.subscriptions).listeners)
    (effects : g'.effects = g.effects.set e x') (bare : x'.subscriptions = [])
    (off : x'.disposed = true ∨ x'.running = true ∧ x.epoch < x'.epoch) (le : x.epoch ≤ x'.epoch)
    (run : x'.running = true → x.running = true ∨ x.epoch < x'.epoch) : g'.Fastened latest := by
  have hlt := (List.getElem?_eq_some_iff.1 hx).1
  have self : g'.effects[e]? = some x' := by rw [effects, List.getElem?_set_self hlt]
  have other {d : EffectId} (hd : e ≠ d) : g'.effects[d]? = g.effects[d]? := by
    rw [effects, List.getElem?_set_ne hd]
  have split {d : EffectId} {z : Effect B} (hz : g'.effects[d]? = some z) : d = e ∧ z = x' ∨
      g.effects[d]? = some z ∧ e ≠ d :=
    getElem?_set_cases (effects ▸ hz)
  have attends {l : ListenerId} {c : CellId} {r : Reaction B} :
      g'.Attends l c r ↔ g.Attends l c r ∧ l ∉ x.subscriptions := by
    rw [← attends_releaseAll, Attends, Attends, slotsOf_congr cells, listeners, slotsOf_releaseAll]
  have targets {l : ListenerId} {d epoch : Nat} (ht : g'.Targets l d epoch) : g.Targets l d epoch :=
    (targets_releaseAll x.subscriptions).1 ((targets_congr listeners).1 ht)
  -- Every part is split between the effect, which has no listeners any more, and the others, which
  -- keep theirs.
  constructor
  case length =>
    intro d z hz hd hr
    rcases split hz with ⟨rfl, rfl⟩ | ⟨hz, -⟩
    · rcases off with off | off
      · rw [hd] at off
        cases off
      · rw [hr] at off
        cases off.1
    · exact h.length hz hd hr
  case loose =>
    intro d z hz hoff
    rcases split hz with ⟨rfl, rfl⟩ | ⟨hz, -⟩
    · exact bare
    · exact h.loose hz hoff
  case links =>
    intro d z l c hz hp
    rcases split hz with ⟨rfl, rfl⟩ | ⟨hz, hed⟩
    · rw [bare] at hp
      cases hp
    · refine attends.2 ⟨h.links hz hp, fun hl => hed ?_⟩
      exact ((h.target hx hl).unique (h.links hz hp).target).1
  case own =>
    intro l c d epoch ha
    obtain ⟨attended, hl⟩ := attends.1 ha
    obtain ⟨z, hz, hp⟩ := h.own attended
    have hed : e ≠ d := by
      rintro rfl
      obtain rfl := Option.some.inj (hx.symm.trans hz)
      exact hl (List.of_mem_zip hp).1
    exact ⟨z, (other hed).trans hz, hp⟩
  case epoch =>
    intro l d epoch ht
    obtain ⟨z, hz, hle, hrun⟩ := h.epoch (targets ht)
    by_cases hed : e = d
    · subst hed
      obtain rfl := Option.some.inj (hx.symm.trans hz)
      refine ⟨x', self, Nat.le_trans hle le, fun hr => ?_⟩
      rcases run hr with hr | hlt
      · exact Nat.lt_of_lt_of_le (hrun hr) le
      · exact Nat.lt_of_le_of_lt hle hlt
    · exact ⟨z, (other hed).trans hz, hle, hrun⟩
  case read =>
    intro l c d hl hc
    obtain ⟨z, hz, hd, ht⟩ := hc
    rw [slotsOf_congr cells] at hl
    rcases split hz with ⟨rfl, rfl⟩ | ⟨hz, -⟩
    · obtain ⟨z', hz', hle, -⟩ := h.epoch (targets ht)
      obtain rfl := Option.some.inj (hx.symm.trans hz')
      rcases off with off | off
      · rw [hd] at off
        cases off
      · exact absurd hle (Nat.not_le_of_lt off.2)
    · exact h.read hl ⟨z, hz, hd, targets ht⟩
  case nodup => exact h.nodup
  case unborn =>
    intro d hd
    by_cases hed : e = d
    · subst hed
      rw [self] at hd
      cases hd
    · exact h.unborn ((other hed).symm.trans hd)

theorem retires (h : g.Fastened latest) (hx : g.effects[e]? = some x) {x' : Effect B}
    (retires : Retires e x x' g g') : g'.Fastened latest :=
  h.retire hx retires.cells retires.listeners retires.effects retires.bare (.inl retires.disposed)
    (Nat.le_of_eq retires.epoch.symm) fun running => .inl (retires.running ▸ running)

theorem start (h : g.Fastened latest) (hx : g.effects[e]? = some x) :
    (g.start e x).Fastened latest :=
  h.retire hx start_cells rfl start_effects rfl (.inr ⟨rfl, Nat.lt_succ_self _⟩) (Nat.le_succ _)
    fun _ => .inr (Nat.lt_succ_self _)

theorem addEffect (h : g.Fastened latest) (body : B) : (g.addEffect body).2.Fastened latest := by
  have old {d : EffectId} (hd : d < g.effects.length) : (g.addEffect body).2.effects[d]? =
      g.effects[d]? :=
    List.getElem?_append_left hd
  have keep {d : EffectId} {z : Effect B} (hz : g.effects[d]? = some z) :
      (g.addEffect body).2.effects[d]? = some z :=
    (old (List.getElem?_eq_some_iff.1 hz).1).trans hz
  have split {d : EffectId} {z : Effect B} (hz : (g.addEffect body).2.effects[d]? = some z) :
      g.effects[d]? = some z ∨ g.effects[d]? = none ∧ z = { body := body } := by
    by_cases hd : d < g.effects.length
    · exact .inl ((old hd).symm.trans hz)
    · simp only [Graph.addEffect, List.getElem?_append_right (Nat.le_of_not_lt hd)] at hz
      exact .inr ⟨List.getElem?_eq_none (Nat.le_of_not_lt hd),
        List.mem_singleton.1 (List.mem_of_getElem? hz)⟩
  constructor
  case length =>
    intro d z hz hd hr
    rcases split hz with old | ⟨fresh, rfl⟩
    · exact h.length old hd hr
    · rw [h.unborn fresh]
  case loose =>
    intro d z hz hoff
    rcases split hz with hz | ⟨-, rfl⟩
    · exact h.loose hz hoff
    · rfl
  case links =>
    intro d z l c hz hp
    rcases split hz with hz | ⟨-, rfl⟩
    · exact h.links hz hp
    · cases hp
  case own =>
    intro l c d epoch ha
    obtain ⟨z, hz, hp⟩ := h.own ha
    exact ⟨z, keep hz, hp⟩
  case epoch =>
    intro l d epoch ht
    obtain ⟨z, hz, hle⟩ := h.epoch ht
    exact ⟨z, keep hz, hle⟩
  case read =>
    rintro l c d hl ⟨z, hz, hd, ht⟩
    obtain ⟨z', hz', -⟩ := h.epoch ht
    obtain rfl := Option.some.inj ((keep hz').symm.trans hz)
    exact h.read hl ⟨z', hz', hd, ht⟩
  case nodup => exact h.nodup
  case unborn =>
    intro d hd
    refine h.unborn (List.getElem?_eq_none ?_)
    have := List.getElem?_eq_none_iff.1 hd
    simp only [Graph.addEffect, List.length_append] at this
    exact Nat.le_of_add_right_le this

theorem forget (h : g.Fastened latest) (hx : g.effects[e]? = some x) (disposed : x.disposed = true)
    {reads : List CellId} (nodup : reads.Nodup) :
    g.Fastened fun d => if d = e then reads else latest d := by
  constructor
  case length =>
    intro d z hz hd hr
    by_cases hde : d = e
    · subst hde
      rw [Option.some.inj (hz.symm.trans hx), disposed] at hd
      cases hd
    · rw [if_neg hde]
      exact h.length hz hd hr
  case loose => exact h.loose
  case links =>
    intro d z l c hz hp
    by_cases hde : d = e
    · subst hde
      rw [Option.some.inj (hz.symm.trans hx), h.loose hx (.inl disposed)] at hp
      cases hp
    · rw [if_neg hde] at hp
      exact h.links hz hp
  case own =>
    intro l c d epoch ha
    obtain ⟨z, hz, hp⟩ := h.own ha
    by_cases hde : d = e
    · subst hde
      rw [Option.some.inj (hz.symm.trans hx), h.loose hx (.inl disposed)] at hp
      cases hp
    · exact ⟨z, hz, by rwa [if_neg hde]⟩
  case epoch => exact h.epoch
  case read =>
    rintro l c d hl ⟨z, hz, hd, ht⟩
    by_cases hde : d = e
    · subst hde
      rw [Option.some.inj (hz.symm.trans hx), disposed] at hd
      cases hd
    · rw [if_neg hde]
      exact h.read hl ⟨z, hz, hd, ht⟩
  case nodup =>
    intro d
    split
    · exact nodup
    · exact h.nodup d
  case unborn =>
    intro d hd
    have hde : d ≠ e := by
      rintro rfl
      cases hd.symm.trans hx
    rw [if_neg hde]
    exact h.unborn hd

theorem finish_disposed (h : g.Fastened latest) (hx : g.effects[e]? = some x)
    (disposed : x.disposed = true) (nodup : g.reads.Nodup) :
    (g.finish e).Fastened fun d => if d = e then g.reads else latest d := by
  have bare : x.subscriptions = [] := h.loose hx (.inl disposed)
  rw [finish_gone hx disposed]
  have retired : Fastened { g.pop with
      effects := g.effects.set e { x with runs := x.runs + 1, running := false } } latest :=
    h.retire hx rfl (by rw [bare]; rfl) rfl bare (.inl disposed) (Nat.le_refl _) nofun
  exact retired.forget (List.getElem?_set_self (List.getElem?_eq_some_iff.1 hx).1) disposed nodup

/-- A run ends: unless the effect has been disposed meanwhile, it is fastened to what the run has
read. -/
theorem finish (h : g.Fastened latest) (ordered : g.Ordered) (hx : g.effects[e]? = some x)
    (running : x.running = true) (nodup : g.reads.Nodup)
    (known : ∀ c ∈ g.reads, c < g.cells.length) :
    (g.finish e).Fastened fun d => if d = e then g.reads else latest d := by
  by_cases disposed : x.disposed = true
  · exact h.finish_disposed hx disposed nodup
  replace disposed : x.disposed = false := Bool.eq_false_iff.2 disposed
  have hlt := (List.getElem?_eq_some_iff.1 hx).1
  have popped : g.pop.Ordered := ordered.thin (fun _ => .refl _) (Nat.le_refl _)
  rw [finish_eq hx disposed]
  have self : (g.effects.set e (ended x (g.pop.attach e x.epoch g.reads).1))[e]? =
      some (ended x (g.pop.attach e x.epoch g.reads).1) := List.getElem?_set_self hlt
  have other {d : EffectId} (hd : d ≠ e) :
      (g.effects.set e (ended x (g.pop.attach e x.epoch g.reads).1))[d]? = g.effects[d]? :=
        List.getElem?_set_ne hd.symm
  have bare : x.subscriptions = [] := h.loose hx (.inr running)
  -- Again the effect and the others; and each listener is an old one, of another effect, or has
  -- just been attached.
  constructor
  case length =>
    intro d z hz hd hr
    rcases getElem?_set_cases hz with ⟨rfl, rfl⟩ | ⟨hz, hed⟩
    · rw [if_pos rfl]
      simp [ended, attach_ids]
    · rw [if_neg hed.symm]
      exact h.length hz hd hr
  case loose =>
    intro d z hz hoff
    rcases getElem?_set_cases hz with ⟨rfl, rfl⟩ | ⟨hz, -⟩
    · simp [ended, disposed] at hoff
    · exact h.loose hz hoff
  case links =>
    intro d z l c hz hp
    rcases getElem?_set_cases hz with ⟨rfl, rfl⟩ | ⟨hz, hed⟩
    · rw [if_pos rfl] at hp
      exact attach_attends popped known hp
    · rw [if_neg hed.symm] at hp
      have attends : g.pop.Attends l c (.rerun d z.epoch) := h.links hz hp
      exact attends.attach popped
  case own =>
    intro l c d epoch ha
    rcases Attends.of_attach (g := g.pop) popped ha with old | ⟨hr, hp⟩
    · obtain ⟨z, hz, hp⟩ := h.own old
      have hde : d ≠ e := by
        rintro rfl
        rw [← Option.some.inj (hx.symm.trans hz), bare] at hp
        cases hp
      exact ⟨z, (other hde).trans hz, by rwa [if_neg hde]⟩
    · cases hr
      exact ⟨_, self, by rwa [if_pos rfl]⟩
  case epoch =>
    intro l d epoch ht
    rcases Targets.of_attach (g := g.pop) ht with old | ⟨-, rfl, rfl⟩
    · obtain ⟨z, hz, hle, hrun⟩ := h.epoch old
      by_cases hde : d = e
      · subst hde
        obtain rfl := Option.some.inj (hx.symm.trans hz)
        exact ⟨_, self, hle, nofun⟩
      · exact ⟨z, (other hde).trans hz, hle, hrun⟩
    · exact ⟨_, self, Nat.le_refl _, nofun⟩
  case read =>
    rintro l c d hl ⟨z, hz, hd, ht⟩
    rcases Targets.of_attach (g := g.pop) ht with old | ⟨hle, rfl, -⟩
    · have known : l < g.listeners.length := (List.getElem?_eq_some_iff.1 old.choose_spec.1).1
      have hl : l ∈ g.slotsOf c := (mem_slotsOf_attach (g := g.pop) hl).resolve_right
        fun h => Nat.not_le_of_lt known h.2
      rcases getElem?_set_cases hz with ⟨rfl, rfl⟩ | ⟨hz, hed⟩
      · obtain ⟨z, hz, -, hrun⟩ := h.epoch old
        obtain rfl := Option.some.inj (hx.symm.trans hz)
        exact absurd (hrun running) (Nat.lt_irrefl _)
      · rw [if_neg hed.symm]
        exact h.read hl ⟨z, hz, hd, old⟩
    · rw [if_pos rfl]
      rcases mem_slotsOf_attach (g := g.pop) hl with old | ⟨hc, -⟩
      · exact absurd (ordered.slot_lt old) (Nat.not_lt_of_le hle)
      · exact hc
  case nodup =>
    intro d
    split
    · exact nodup
    · exact h.nodup d
  case unborn =>
    intro d hd
    by_cases hde : d = e
    · subst hde
      cases self.symm.trans hd
    · rw [if_neg hde]
      exact h.unborn ((other hde).symm.trans hd)

end Fastened
end StoryPreview.Reactive.Graph
