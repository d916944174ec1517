import Mathlib.Data.List.Basic
import StoryPreview.Proofs.Reactive.Calm
/-!
Who hears of a change, and in which order. The audience of a cell are the effects that a change of
it makes run again, in the order in which their listeners stand. A run of an effect takes it out of
every audience and puts it at the end of those of the cells that it has read; everything else leaves
audiences as they are or takes an effect out of them for good.
-/
namespace StoryPreview.Reactive
variable {B V W : Type}

def Listener.target? (y : Listener B) : Option EffectId :=
  match y.reaction with
  | .rerun e _ => if y.guarded then some e else none
  | .call _ => none

theorem Listener.target?_eq_some {y : Listener B} {e : EffectId} :
    y.target? = some e ↔ ∃ epoch, y.reaction = .rerun e epoch ∧ y.guarded = true := by
  cases hr : y.reaction with
  | call b => simp [target?, hr]
  | rerun d epoch =>
    cases hg : y.guarded with
    | false => simp [target?, hr, hg]
    | true => simp [target?, hr, hg]

namespace Graph
variable {g g' : Graph B V W} {e d : EffectId} {x : Effect B} {c : CellId} {l : ListenerId}

def target? (g : Graph B V W) (l : ListenerId) : Option EffectId :=
  g.listeners[l]?.bind Listener.target?

def slotsOf (g : Graph B V W) (c : CellId) : List ListenerId := (g.cells[c]?.map Cell.slots).getD []

/-- The effects that a change of a cell makes run again, in order. -/
def audience (g : Graph B V W) (c : CellId) : List EffectId := (g.slotsOf c).filterMap g.target?

def pinsOf (g : Graph B V W) (l : ListenerId) : Nat := (g.listeners[l]?.map Listener.pins).getD 0

/-- A listener that has not been given up is one of the latest run of its effect, and one that has
been given up is of an earlier run, or its effect is disposed. -/
structure Neat (g : Graph B V W) : Prop where
  guarded : ∀ {l : ListenerId} {y : Listener B} {e epoch : Nat}, g.listeners[l]? = some y →
    y.reaction = .rerun e epoch → y.guarded = true →
      ∃ x, g.effects[e]? = some x ∧ x.disposed = false ∧ x.epoch = epoch ∧ l ∈ x.subscriptions
  givenUp : ∀ {l : ListenerId} {y : Listener B} {e epoch : Nat} {x : Effect B},
    g.listeners[l]? = some y →
    y.reaction = .rerun e epoch → y.guarded = false → g.effects[e]? = some x → x.disposed = false →
    epoch < x.epoch

def Loose (g : Graph B V W) : Prop := ∀ l, g.pinsOf l = 0

theorem mem_slotsOf : l ∈ g.slotsOf c ↔ ∃ x, g.cells[c]? = some x ∧ l ∈ x.slots := by
  cases h : g.cells[c]? <;> simp [slotsOf, h]

theorem Wired.slotsOf_lt {mentions follows : B → List CellId} {out : Option EffectId}
    (h : g.Wired mentions follows out) (hl : l ∈ g.slotsOf c) : l < g.listeners.length := by
  obtain ⟨x, hx, hl⟩ := mem_slotsOf.1 hl
  exact h.slot_lt hx hl

/-! What depends on cells, listeners and effects only. -/

theorem audience_congr (hc : g'.cells = g.cells) (hl : g'.listeners = g.listeners) :
    g'.audience = g.audience := by
  funext c
  have target : g'.target? = g.target? := by
    funext l
    rw [target?, target?, hl]
  rw [audience, audience, slotsOf, slotsOf, hc, target]

theorem pinsOf_congr (hl : g'.listeners = g.listeners) : g'.pinsOf = g.pinsOf := by
  funext l
  rw [pinsOf, pinsOf, hl]

theorem Neat.congr (h : g.Neat) (hl : g'.listeners = g.listeners) (he : g'.effects = g.effects) :
    g'.Neat := by
  obtain ⟨h1, h2⟩ := h
  constructor <;> simp only [hl, he] <;> assumption

/-! Listeners that are released. -/

theorem target?_releaseAll (ls : List ListenerId) (l : ListenerId) :
    (g.releaseAll ls).target? l = if l ∈ ls then none else g.target? l := by
  rw [target?, target?, releaseAll_listener]
  cases g.listeners[l]? with
  | none => simp
  | some y =>
    by_cases hl : l ∈ ls
    · cases hr : y.reaction <;> simp [hl, Listener.target?, hr]
    · simp [hl]

theorem pinsOf_releaseAll (ls : List ListenerId) : (g.releaseAll ls).pinsOf = g.pinsOf := by
  funext l
  rw [pinsOf, pinsOf, releaseAll_listener]
  cases g.listeners[l]? with
  | none => rfl
  | some y => by_cases hl : l ∈ ls <;> simp [hl]

section Release
variable {mentions follows : B → List CellId} {out : Option EffectId}
    (h : g.Wired mentions follows out) (hn : g.Neat)
include h hn

/-- The listeners of an effect are those to which it is subscribed. -/
theorem mem_subscriptions (hx : g.effects[e]? = some x) (ht : g.target? l = some d) :
    l ∈ x.subscriptions ↔ d = e := by
  obtain ⟨y, hy, ht⟩ := Option.bind_eq_some_iff.1 ht
  obtain ⟨epoch, hr, hg⟩ := Listener.target?_eq_some.1 ht
  constructor
  · intro hl
    obtain ⟨z, k, hz, hk⟩ := h.own hx hl
    obtain rfl := Option.some.inj (hy.symm.trans hz)
    cases hr.symm.trans hk
    rfl
  · rintro rfl
    obtain ⟨z, hz, -, -, hl⟩ := hn.guarded hy hr hg
    obtain rfl := Option.some.inj (hx.symm.trans hz)
    exact hl

theorem target?_releaseAll_subscriptions (hx : g.effects[e]? = some x) (l : ListenerId) :
    (g.releaseAll x.subscriptions).target? l = (g.target? l).filter (· ≠ e) := by
  rw [target?_releaseAll]
  cases ht : g.target? l with
  | none => simp
  | some d => by_cases hd : d = e <;> simp [mem_subscriptions h hn hx ht, hd, Option.filter]

/-- An effect whose listeners are released is in no audience. -/
theorem audience_releaseAll (hx : g.effects[e]? = some x) (c : CellId) :
    (g.releaseAll x.subscriptions).audience c = (g.audience c).filter (· ≠ e) := by
  have slots : (g.releaseAll x.subscriptions).slotsOf c = g.slotsOf c := by
    rw [slotsOf, releaseAll_cells, slotsOf]
  rw [audience, audience, slots, List.filter_filterMap]
  exact List.filterMap_congr fun l _ => target?_releaseAll_subscriptions h hn hx l

/-- An effect that goes on to its next run, or is disposed, gives up its listeners. -/
theorem Neat.next (hx : g.effects[e]? = some x) (x' : Effect B)
    (later : x'.disposed = false → x.disposed = false ∧ x.epoch < x'.epoch) :
    Neat { g.releaseAll x.subscriptions with effects := g.effects.set e x' } := by
  have hlt := (List.getElem?_eq_some_iff.1 hx).1
  constructor
  · intro l y d epoch hy hr hg
    replace hy : (g.releaseAll x.subscriptions).listeners[l]? = some y := hy
    rw [releaseAll_listener, Option.map_eq_some_iff] at hy
    obtain ⟨z, hz, rfl⟩ := hy
    by_cases hl : l ∈ x.subscriptions
    · simp [hl] at hg
    · simp only [hl, if_false] at hr hg
      obtain ⟨w, hw, hd, he, hs⟩ := hn.guarded hz hr hg
      refine ⟨w, ?_, hd, he, hs⟩
      have hde : e ≠ d := by
        rintro rfl
        obtain rfl := Option.some.inj (hx.symm.trans hw)
        exact hl hs
      exact (List.getElem?_set_ne hde).trans hw
  · intro l y d epoch w hy hr hg hw hd
    replace hy : (g.releaseAll x.subscriptions).listeners[l]? = some y := hy
    replace hw : (g.effects.set e x')[d]? = some w := hw
    rw [releaseAll_listener, Option.map_eq_some_iff] at hy
    obtain ⟨z, hz, rfl⟩ := hy
    have hzr : z.reaction = .rerun d epoch := by split at hr <;> exact hr
    by_cases hde : e = d
    · subst hde
      obtain rfl := Option.some.inj ((List.getElem?_set_self hlt).symm.trans hw)
      obtain ⟨hx', before⟩ := later hd
      cases hzg : z.guarded with
      | true =>
        obtain ⟨u, hu, -, rfl, -⟩ := hn.guarded hz hzr hzg
        obtain rfl := Option.some.inj (hx.symm.trans hu)
        exact before
      | false => exact Nat.lt_trans (hn.givenUp hz hzr hzg hx hx') before
    · rw [List.getElem?_set_ne hde] at hw
      by_cases hl : l ∈ x.subscriptions
      · obtain ⟨u, k, hu, hk⟩ := h.own hx hl
        obtain rfl := Option.some.inj (hz.symm.trans hu)
        cases hzr.symm.trans hk
        exact absurd rfl hde
      · simp only [hl, if_false] at hg
        exact hn.givenUp hz hzr hg hw hd

end Release

/-! A listener that is attached. -/

section Attach
variable {mentions follows : B → List CellId} {out : Option EffectId}

theorem target?_subscribe_old (c : CellId) (r : Reaction B) (hl : l < g.listeners.length) :
    (g.subscribe c r).2.target? l = g.target? l := by
  rw [target?, target?, subscribe_listener_old c r hl]

theorem target?_subscribe_new (c : CellId) (r : Reaction B) :
    (g.subscribe c r).2.target? g.listeners.length = ({ reaction := r } : Listener B).target? := by
  rw [target?, subscribe_listener_new, Option.bind_some]

theorem slotsOf_subscribe (c d : CellId) (r : Reaction B) : (g.subscribe c r).2.slotsOf d =
    g.slotsOf d ++ if c = d ∧ d < g.cells.length then [g.listeners.length] else [] := by
  rw [slotsOf, slotsOf, subscribe_cell]
  by_cases hd : d < g.cells.length
  · rw [List.getElem?_eq_getElem hd]
    by_cases hc : c = d <;> simp [hc, hd]
  · rw [List.getElem?_eq_none (Nat.le_of_not_lt hd)]
    simp [hd]

theorem audience_subscribe (h : g.Wired mentions follows out) (c d : CellId) (r : Reaction B) :
    (g.subscribe c r).2.audience d = g.audience d ++
      if c = d ∧ d < g.cells.length then (({ reaction := r } : Listener B).target?).toList
      else [] := by
  have old : (g.slotsOf d).filterMap (g.subscribe c r).2.target? =
      (g.slotsOf d).filterMap g.target? :=
    List.filterMap_congr fun l hl => target?_subscribe_old c r (h.slotsOf_lt hl)
  rw [audience, slotsOf_subscribe, List.filterMap_append, old]
  congr 1
  split
  · rw [List.filterMap_cons, target?_subscribe_new, List.filterMap_nil]
    cases ({ reaction := r } : Listener B).target? <;> rfl
  · rfl

/-- An effect that is attached to cells stands at the end of their audiences, once for each time. -/
theorem audience_attach (h : g.Wired mentions follows out) (he : e < g.effects.length) (epoch : Nat)
    (cs : List CellId) (d : CellId) : (g.attach e epoch cs).2.audience d =
      g.audience d ++ List.replicate (if d < g.cells.length then cs.count d else 0) e := by
  induction cs generalizing g with
  | nil => simp [attach]
  | cons c cs ih =>
    have wired := h.subscribe c (.rerun e epoch) (by rintro d k ⟨⟩; exact he)
    have rest := ih wired he
    rw [subscribe_cells_length, audience_subscribe h] at rest
    refine rest.trans ?_
    rw [List.append_assoc]
    congr 1
    by_cases hd : d < g.cells.length
    · by_cases hc : c = d
      · subst hc
        simp [hd, Listener.target?, List.replicate_succ]
      · simp [hd, hc]
    · simp [hd]

theorem attach_listeners (e epoch : Nat) (cs : List CellId) (g : Graph B V W) :
    (g.attach e epoch cs).2.listeners = g.listeners ++ List.replicate cs.length
      { reaction := .rerun e epoch } := by
  induction cs generalizing g with
  | nil => simp [attach]
  | cons c cs ih => simp [attach, ih, subscribe, List.replicate_succ]

theorem attach_ids (e epoch : Nat) (cs : List CellId) (g : Graph B V W) :
    (g.attach e epoch cs).1 = List.range' g.listeners.length cs.length := by
  induction cs generalizing g with
  | nil => rfl
  | cons c cs ih =>
    simp only [attach, ih, subscribe_length, List.length_cons, List.range'_succ]
    rfl

theorem pinsOf_append (ls : List (Listener B)) (hl : g'.listeners = g.listeners ++ ls)
    (hp : ∀ y ∈ ls, y.pins = 0) : g'.pinsOf = g.pinsOf := by
  funext l
  rw [pinsOf, pinsOf, hl]
  by_cases hlt : l < g.listeners.length
  · rw [List.getElem?_append_left hlt]
  · have hle := Nat.le_of_not_lt hlt
    rw [List.getElem?_append_right hle, List.getElem?_eq_none hle]
    cases hy : ls[l - g.listeners.length]? with
    | none => rfl
    | some y => exact hp y (List.mem_of_getElem? hy)

/-- An effect that has ended a run of which it has no listeners yet is attached anew. -/
theorem Neat.attached (h : g.Neat) (hx : g.effects[e]? = some x) (hd : x.disposed = false)
    (hs : x.subscriptions = []) {ls : List ListenerId} {cs : List CellId} (x' : Effect B)
    (hl : g'.listeners = g.listeners ++ List.replicate cs.length { reaction := .rerun e x.epoch })
    (he : g'.effects = g.effects.set e x') (hls : ls = List.range' g.listeners.length cs.length)
    (hx' : x'.disposed = false ∧ x'.epoch = x.epoch ∧ x'.subscriptions = ls) : g'.Neat := by
  have hlt := (List.getElem?_eq_some_iff.1 hx).1
  obtain ⟨hd', hk, hs'⟩ := hx'
  have split {l : ListenerId} {y : Listener B} (hy : g'.listeners[l]? = some y) :
      g.listeners[l]? = some y ∨ l ∈ ls ∧ y = { reaction := .rerun e x.epoch } := by
    rw [hl] at hy
    by_cases hll : l < g.listeners.length
    · exact .inl (by rwa [List.getElem?_append_left hll] at hy)
    · have hle := Nat.le_of_not_lt hll
      rw [List.getElem?_append_right hle, List.getElem?_replicate] at hy
      split at hy
      · rename_i hn
        refine .inr ⟨?_, (Option.some.inj hy).symm⟩
        rw [hls, List.mem_range'_1]
        exact ⟨hle, by omega⟩
      · cases hy
  constructor
  · intro l y d epoch hy hr hg
    rw [he]
    rcases split hy with hy | ⟨hl, rfl⟩
    · obtain ⟨z, hz, hzd, hze, hzs⟩ := h.guarded hy hr hg
      have hed : e ≠ d := by
        rintro rfl
        obtain rfl := Option.some.inj (hx.symm.trans hz)
        rw [hs] at hzs
        cases hzs
      exact ⟨z, (List.getElem?_set_ne hed).trans hz, hzd, hze, hzs⟩
    · cases hr
      exact ⟨x', List.getElem?_set_self hlt, hd', hk, hs' ▸ hl⟩
  · intro l y d epoch z hy hr hg hz hzd
    rw [he] at hz
    rcases split hy with hy | ⟨-, rfl⟩
    · by_cases hed : e = d
      · subst hed
        obtain rfl := Option.some.inj ((List.getElem?_set_self hlt).symm.trans hz)
        rw [hk]
        exact h.givenUp hy hr hg hx hd
      · rw [List.getElem?_set_ne hed] at hz
        exact h.givenUp hy hr hg hz hzd
    · cases hg

end Attach

/-! The end of a run. -/

section Finish
variable (hx : g.effects[e]? = some x) (hd : x.disposed = false)
include hx hd

theorem finish_listeners : (g.finish e).listeners =
    g.listeners ++ List.replicate g.reads.length { reaction := .rerun e x.epoch } := by
  rw [finish_eq hx hd]
  exact attach_listeners e x.epoch g.reads g.pop

theorem target?_finish (hl : l < g.listeners.length) : (g.finish e).target? l = g.target? l := by
  rw [target?, target?, finish_listeners hx hd, List.getElem?_append_left hl]

/-- After a run an effect stands at the end of the audience of each cell that it has read. -/
theorem audience_finish {mentions follows : B → List CellId} (h : g.Wired mentions follows (some e))
    (c : CellId) : (g.finish e).audience c =
      g.audience c ++ List.replicate (if c < g.cells.length then g.reads.count c else 0) e := by
  have popped : g.pop.Wired mentions follows (some e) := h.congr rfl rfl rfl
  have attached := audience_attach popped (List.getElem?_eq_some_iff.1 hx).1 x.epoch g.reads c
  rw [finish_eq hx hd]
  exact attached

theorem Neat.finish (h : g.Neat) (bare : x.subscriptions = []) : (g.finish e).Neat := by
  refine h.attached hx hd bare (ended x (g.pop.attach e x.epoch g.reads).1)
    (finish_listeners hx hd) ?_ rfl ⟨hd, rfl, attach_ids e x.epoch g.reads g.pop⟩
  rw [finish_eq hx hd]
  rfl

end Finish

theorem pinsOf_finish (g : Graph B V W) (e : EffectId) : (g.finish e).pinsOf = g.pinsOf := by
  rcases g.finish_cases e with ⟨effects, -, finished⟩ | ⟨x, hx, undisposed⟩
  · rw [finished]
    exact pinsOf_congr rfl
  · exact pinsOf_append _ (finish_listeners hx undisposed) fun y hy =>
      by rw [(List.mem_replicate.1 hy).2]

/-! What else a step of a system does. -/

theorem Neat.addEffect {mentions follows : B → List CellId} {out : Option EffectId} (h : g.Neat)
    (hl : g.Wired mentions follows out) (body : B) : (g.addEffect body).2.Neat := by
  have old {d : EffectId} (hd : d < g.effects.length) :
      (g.addEffect body).2.effects[d]? = g.effects[d]? := List.getElem?_append_left hd
  constructor
  · intro l y d epoch hy hr hg
    rw [old (hl.target_lt hy hr)]
    exact h.guarded hy hr hg
  · intro l y d epoch z hy hr hg hz
    rw [old (hl.target_lt hy hr)] at hz
    exact h.givenUp hy hr hg hz

theorem Neat.subscribe (h : g.Neat) (c : CellId) (body : B) :
    (g.subscribe c (.call body)).2.Neat := by
  have split {l : ListenerId} {y : Listener B} {e epoch : Nat}
      (hy : (g.subscribe c (.call body)).2.listeners[l]? = some y)
        (hr : y.reaction = .rerun e epoch) :
      g.listeners[l]? = some y := by
    by_cases hl : l < g.listeners.length
    · rwa [subscribe_listener_old c _ hl] at hy
    · have hlt := (List.getElem?_eq_some_iff.1 hy).1
      rw [subscribe_length] at hlt
      obtain rfl : l = g.listeners.length :=
        Nat.le_antisymm (Nat.le_of_lt_succ hlt) (Nat.le_of_not_lt hl)
      rw [subscribe_listener_new] at hy
      cases hy
      cases hr
  constructor
  · intro l y d epoch hy hr hg
    exact h.guarded (split hy hr) hr hg
  · intro l y d epoch z hy hr hg hz
    exact h.givenUp (split hy hr) hr hg hz

theorem pinsOf_subscribe (c : CellId) (r : Reaction B) : (g.subscribe c r).2.pinsOf = g.pinsOf :=
  pinsOf_append [{ reaction := r }] rfl (by simp)

theorem Neat.release (h : g.Neat) {y : Listener B} {b : B} (hy : g.listeners[l]? = some y)
    (hr : y.reaction = .call b) : (g.release l).Neat := by
  have old {k : ListenerId} {z : Listener B} {e epoch : Nat} (hz : (g.release l).listeners[k]? =
      some z) (hzr : z.reaction = .rerun e epoch) : g.listeners[k]? = some z := by
    have key := releaseAll_listener (g := g) [l] k
    replace key : (g.release l).listeners[k]? = _ := key
    rw [key, Option.map_eq_some_iff] at hz
    obtain ⟨w, hw, rfl⟩ := hz
    by_cases hk : k ∈ [l]
    · obtain rfl := List.mem_singleton.1 hk
      obtain rfl := Option.some.inj (hy.symm.trans hw)
      simp [hr] at hzr
    · simpa [hk] using hw
  constructor
  · intro k z e epoch hz hzr hg
    exact h.guarded (old hz hzr) hzr hg
  · intro k z e epoch x hz hzr hg hx
    exact h.givenUp (old hz hzr) hzr hg hx

section Dispose
variable {mentions follows : B → List CellId} (h : g.Wired mentions follows none) (hn : g.Neat)
include h hn

theorem audience_dispose (e : EffectId) (c : CellId) :
    (g.dispose e).audience c = (g.audience c).filter (· ≠ e) := by
  rcases dispose_cases g e with ⟨he, hd⟩ | ⟨x, hx, -, he⟩
  · rw [he, audience]
    refine (List.filter_eq_self.2 fun d hm => ?_).symm
    obtain ⟨l, -, ht⟩ := List.mem_filterMap.1 hm
    obtain ⟨y, hy, ht⟩ := Option.bind_eq_some_iff.1 ht
    obtain ⟨epoch, hr, hg⟩ := Listener.target?_eq_some.1 ht
    obtain ⟨x, hx, hxd, -⟩ := hn.guarded hy hr hg
    have hde : d ≠ e := by
      rintro rfl
      rw [hd x hx] at hxd
      cases hxd
    simpa using hde
  · rw [he, ← audience_releaseAll h hn hx c]
    rfl

theorem Neat.dispose (e : EffectId) : (g.dispose e).Neat := by
  rcases dispose_cases g e with ⟨he, -⟩ | ⟨x, hx, -, he⟩
  · rwa [he]
  · rw [he]
    exact hn.next h hx _ (by simp [gone])

theorem audience_drop (e : EffectId) (c : CellId) :
    (g.drop e).audience c = (g.audience c).filter (· ≠ e) :=
  audience_dispose h hn e c

theorem Neat.drop (e : EffectId) : (g.drop e).Neat := by
  have disposed := hn.dispose h e
  have effect {d : EffectId} {x : Effect B} (hx : (g.drop e).effects[d]? = some x) :
      ∃ z, (g.dispose e).effects[d]? = some z ∧ z.disposed = x.disposed ∧ z.epoch = x.epoch := by
    rw [drop_effect, Option.map_eq_some_iff] at hx
    obtain ⟨z, hz, rfl⟩ := hx
    exact ⟨z, hz, by split <;> rfl, by split <;> rfl⟩
  constructor
  · intro l y d epoch hy hr hg
    obtain ⟨z, hz, hd, he, hs⟩ := disposed.guarded hy hr hg
    rw [drop_effect, hz]
    refine ⟨_, rfl, ?_, ?_, ?_⟩ <;> split <;> assumption
  · intro l y d epoch x hy hr hg hx hd
    obtain ⟨z, hz, hzd, hze⟩ := effect hx
    rw [← hze]
    exact disposed.givenUp hy hr hg hz (hzd.trans hd)

end Dispose

theorem pinsOf_dispose (e : EffectId) : (g.dispose e).pinsOf = g.pinsOf := by
  rcases dispose_cases g e with ⟨he, -⟩ | ⟨x, -, -, he⟩
  · rw [he]
  · rw [he]
    exact pinsOf_releaseAll x.subscriptions

theorem pinsOf_drop (e : EffectId) : (g.drop e).pinsOf = g.pinsOf := pinsOf_dispose e

end Graph
end StoryPreview.Reactive
