import Mathlib.Data.List.Nodup
import StoryPreview.Proofs.Reactive.Crediting
/-!
Who is subscribed. Whenever nothing is under way, a cell has one living listener for each guard that
has not been given up, and one for each effect whose latest run has read it; and nothing is credited
to that run but what it has read itself.
-/
namespace StoryPreview.Reactive
variable {B V W : Type} {keeps : W → ListenerId → Prop} {m : Meaning B V W}

namespace Graph
variable {g : Graph B V W} {l k : ListenerId} {c : CellId} {e : EffectId} {x : Effect B}

theorem eq_of_mem_zip {α β : Type} {as : List α} {bs : List β} (h : bs.Nodup) {a a' : α} {b : β}
    (ha : (a, b) ∈ as.zip bs) (ha' : (a', b) ∈ as.zip bs) : a = a' := by
  obtain ⟨i, hi, heq⟩ := List.mem_iff_getElem.1 ha
  obtain ⟨j, hj, heq'⟩ := List.mem_iff_getElem.1 ha'
  rw [List.getElem_zip] at heq heq'
  obtain ⟨rfl, hb⟩ := Prod.mk.inj heq
  obtain ⟨rfl, hb'⟩ := Prod.mk.inj heq'
  have same : i = j := (h.getElem_inj_iff).1 (hb.trans hb'.symm)
  simp only [same]

theorem target?_eq_some_iff (hl : l ∈ g.slotsOf c) :
    g.target? l = some e ↔ ∃ epoch, g.Attends l c (.rerun e epoch) := by
  rw [target?, Option.bind_eq_some_iff]
  constructor
  · rintro ⟨y, hy, target⟩
    obtain ⟨epoch, hr, guarded⟩ := Listener.target?_eq_some.1 target
    exact ⟨epoch, hl, by simp [hy, hr, guarded]⟩
  · rintro ⟨epoch, -, attends⟩
    obtain ⟨y, hy, heq⟩ := Option.map_eq_some_iff.1 attends
    exact ⟨y, hy, Listener.target?_eq_some.2 ⟨epoch, congrArg Prod.fst heq, congrArg Prod.snd heq⟩⟩

theorem mem_audience : e ∈ g.audience c ↔ ∃ l epoch, g.Attends l c (.rerun e epoch) := by
  rw [audience, List.mem_filterMap]
  constructor
  · rintro ⟨l, hl, target⟩
    exact ⟨l, (target?_eq_some_iff hl).1 target⟩
  · rintro ⟨l, epoch, attends⟩
    exact ⟨l, attends.1, (target?_eq_some_iff attends.1).2 ⟨epoch, attends⟩⟩

/-- No effect is in the audience of a cell twice. -/
theorem Fastened.nodup_audience {latest : EffectId → List CellId} (h : g.Fastened latest)
    (ordered : g.Ordered) (c : CellId) : (g.audience c).Nodup := by
  rw [audience, List.Nodup, List.pairwise_filterMap]
  refine (ordered.sorted c).imp_of_mem fun {l k} hl hk hlt e he d hd hed => ?_
  subst hed
  obtain ⟨_, attends⟩ := (target?_eq_some_iff hl).1 he
  obtain ⟨_, attends'⟩ := (target?_eq_some_iff hk).1 hd
  obtain ⟨x, hx, pair⟩ := h.own attends
  obtain ⟨x', hx', pair'⟩ := h.own attends'
  obtain rfl := Option.some.inj (hx.symm.trans hx')
  exact Nat.ne_of_lt hlt (eq_of_mem_zip (h.nodup e) pair pair')

end Graph

namespace Logged
variable {s : Logged B V W}

namespace Rested

theorem running (h : s.Rested keeps) : s.account.running = [] := by
  rw [Account.running, h.idle]
  rfl

theorem resting (h : s.Rested keeps) {e : EffectId} {x : Effect B}
    (hx : s.graph.effects[e]? = some x) : x.running = false := by
  refine Bool.eq_false_iff.2 fun runs => ?_
  have mem := (h.staffed.tallied hx).running.1 runs
  rw [h.running] at mem
  cases mem

/-- The effects in the audience of a cell are those whose latest run has read it. -/
theorem mem_audience (h : s.Rested keeps) {c : CellId} {e : EffectId} :
    e ∈ s.graph.audience c ↔ e ∈ s.account.readers c := by
  rw [Graph.mem_audience, Account.mem_readers, h.staffed.count]
  constructor
  · rintro ⟨l, epoch, attends⟩
    obtain ⟨x, hx, pair⟩ := h.staffed.fastened.own attends
    obtain ⟨subscribed, read⟩ := List.of_mem_zip pair
    refine ⟨(List.getElem?_eq_some_iff.1 hx).1, fun gone => ?_, read⟩
    rw [h.staffed.fastened.loose hx (.inl ((h.staffed.tallied hx).gone.2 gone))] at subscribed
    cases subscribed
  · rintro ⟨known, present, read⟩
    have hx := List.getElem?_eq_getElem known
    have undisposed := Bool.eq_false_iff.2 fun disposed =>
      present ((h.staffed.tallied hx).gone.1 disposed)
    obtain ⟨l, attends⟩ := h.staffed.fastened.exists_attends hx undisposed (h.resting hx) read
    exact ⟨l, _, attends⟩

theorem length_audience (h : s.Rested keeps) (c : CellId) :
    (s.graph.audience c).length = (s.account.readers c).length := by
  have nodup := h.staffed.fastened.nodup_audience h.staffed.ordered c
  have readers : (s.account.readers c).Nodup := List.nodup_range.filter _
  exact ((List.perm_ext_iff_of_nodup nodup readers).2 fun e => h.mem_audience).length_eq

/-- Nothing is captured, so the listeners that are alive are those that have not been given up. -/
theorem attends_of_live (h : s.Rested keeps) {l : ListenerId} {c : CellId}
    (hl : l ∈ s.graph.liveSlots c) : ∃ r, s.graph.Attends l c r := by
  obtain ⟨slot, live⟩ := Graph.mem_liveSlots.1 hl
  obtain ⟨y, hy⟩ : ∃ y, s.graph.listeners[l]? = some y :=
    ⟨_, List.getElem?_eq_getElem (h.staffed.ordered.slot_lt slot)⟩
  have unpinned : s.graph.pinsOf l = 0 := by
    rw [h.pinned.pins, captures, Account.rounds, h.idle]
    rfl
  simp only [Graph.pinsOf, hy, Option.map_some, Option.getD_some] at unpinned
  have guarded : y.guarded = true := by
    simpa [Graph.isLive, hy, Listener.isLive, unpinned] using live
  exact ⟨_, slot, by rw [hy, Option.map_some, guarded]⟩

/-- A listener has a body of its own if it makes no effect run. -/
theorem target?_eq_none_iff (h : s.Rested keeps) {l : ListenerId} {c : CellId}
    (hl : l ∈ s.graph.liveSlots c) : s.graph.target? l = none ↔ (c, l) ∈ s.account.guards := by
  have slot := (Graph.mem_liveSlots.1 hl).1
  rw [h.guarded.guards]
  constructor
  · intro target
    obtain ⟨r, attends⟩ := h.attends_of_live hl
    cases r with
    | call b => exact ⟨b, attends⟩
    | rerun e epoch => cases target.symm.trans ((Graph.target?_eq_some_iff slot).2 ⟨epoch, attends⟩)
  · rintro ⟨b, attends⟩
    refine Option.eq_none_iff_forall_ne_some.2 fun e target => ?_
    obtain ⟨epoch, attends'⟩ := (Graph.target?_eq_some_iff slot).1 target
    cases congrArg Prod.fst (Option.some.inj (attends.2.symm.trans attends'.2))

/-- The living listeners that are there for themselves are those that are guarded. -/
theorem length_guards (h : s.Rested keeps) (c : CellId) :
    ((s.graph.liveSlots c).filter fun l => (s.graph.target? l).isNone).length =
      s.account.guards.countP fun p => p.1 = c := by
  have live : ((s.graph.liveSlots c).filter fun l => (s.graph.target? l).isNone).Nodup :=
    (((h.staffed.ordered.sorted c).imp Nat.ne_of_lt).filter _).filter _
  have guards : ((s.account.guards.filter fun p => p.1 = c).map Prod.snd).Nodup := by
    refine (List.nodup_map_iff_inj_on (h.guarded.nodup.filter _)).2 fun p hp q hq heq =>
      Prod.ext ?_ heq
    have hp := of_decide_eq_true (List.mem_filter.1 hp).2
    have hq := of_decide_eq_true (List.mem_filter.1 hq).2
    exact hp.trans hq.symm
  have members (l : ListenerId) : l ∈ (s.graph.liveSlots c).filter
      (fun l => (s.graph.target? l).isNone) ↔
      l ∈ (s.account.guards.filter fun p => p.1 = c).map Prod.snd := by
    rw [List.mem_filter, List.mem_map, Option.isNone_iff_eq_none]
    constructor
    · rintro ⟨hl, target⟩
      exact ⟨(c, l), List.mem_filter.2 ⟨(h.target?_eq_none_iff hl).1 target, decide_eq_true rfl⟩,
        rfl⟩
    · rintro ⟨⟨d, l⟩, hp, rfl⟩
      obtain ⟨guard, hd⟩ := List.mem_filter.1 hp
      obtain rfl := of_decide_eq_true hd
      obtain ⟨b, attends⟩ := h.guarded.guards.1 guard
      have live := attends.mem_liveSlots
      exact ⟨live, (h.target?_eq_none_iff live).2 guard⟩
  have perm := (List.perm_ext_iff_of_nodup live guards).2 members
  rw [perm.length_eq, List.length_map, List.countP_eq_length_filter]

theorem listeners_eq (h : s.Rested keeps) {c : CellId} {view : CellView V}
    (hv : s.graph.cellView? c = some view) :
    view.listeners = s.account.guards.countP (fun p => p.1 = c) + (s.account.readers c).length := by
  obtain ⟨z, hz, rfl⟩ := Option.map_eq_some_iff.1 hv
  have slots : s.graph.slotsOf c = z.slots := by
    rw [Graph.slotsOf, hz]
    rfl
  have effects : (s.account.readers c).length =
      ((s.graph.liveSlots c).filter fun l => (s.graph.target? l).isSome).length := by
    rw [← h.length_audience, ← Graph.filterMap_liveSlots, List.length_filterMap_eq_countP,
      List.countP_eq_length_filter]
  calc z.slots.countP s.graph.isLive
      = (s.graph.liveSlots c).length := by rw [List.countP_eq_length_filter, ← slots]; rfl
    _ = (s.account.readers c).length + s.account.guards.countP fun p => p.1 = c := by
      rw [List.length_eq_length_filter_add fun l => (s.graph.target? l).isSome, effects,
        ← h.length_guards]
      simp only [Option.not_isSome]
    _ = _ := Nat.add_comm ..

theorem dependencies_eq (h : s.Rested keeps) {e : EffectId} {view : EffectView}
    (hv : s.graph.effectView? e = some view) : (view.disposed = true ↔ e ∈ s.account.gone) ∧
      view.dependencies = if view.disposed then 0 else (s.account.latest e).length := by
  obtain ⟨x, hx, rfl⟩ := Option.map_eq_some_iff.1 hv
  have tallied := h.staffed.tallied hx
  refine ⟨tallied.gone, ?_⟩
  split
  · exact tallied.loss ‹_›
  · exact tallied.dependencies (Bool.eq_false_iff.2 ‹_›) (h.resting hx)

end Rested
end Logged

structure Subscribed (g : Graph B V W) (log : List (Mark V)) : Prop where
  /-- A cell has one listener for each guard, and one for each effect that is there and whose latest
  run has read it. -/
  listeners : ∀ {c : CellId} {view : CellView V}, g.cellView? c = some view →
    ∃ readers : List EffectId, readers.Nodup ∧
    (∀ e, e ∈ readers ↔ e < g.effects.length ∧ e ∉ (account log).gone ∧ Tracked log e c) ∧
    view.listeners = (account log).guards.countP (fun p => p.1 = c) + readers.length
  /-- An effect that is there depends on the different cells that its latest run has read. -/
  dependencies : ∀ {e : EffectId} {view : EffectView}, g.effectView? e = some view →
    (view.disposed = true ↔ e ∈ (account log).gone) ∧ ∃ cells : List CellId, cells.Nodup ∧
      (∀ c, c ∈ cells ↔ Tracked log e c) ∧ view.dependencies = if view.disposed then 0
      else cells.length
  nested : Nested log

theorem Logged.Rested.subscribed {s : Logged B V W} (h : s.Rested keeps) :
    Subscribed s.graph s.log where
  listeners := by
    intro c view hv
    refine ⟨s.account.readers c, List.nodup_range.filter _, fun e => ?_, h.listeners_eq hv⟩
    rw [Account.mem_readers, h.staffed.count, ← h.proper.mem_latest_iff]
    rfl
  dependencies := by
    intro e view hv
    obtain ⟨disposed, count⟩ := h.dependencies_eq hv
    exact ⟨disposed, s.account.latest e, h.staffed.fastened.nodup e,
      fun c => h.proper.mem_latest_iff, count⟩
  nested := h.proper.nested <| by
    rw [← h.proper.blocks_eq, Account.blocks, ← Logged.account, h.idle]
    rfl

/-- Whenever calls from outside have returned, the subscriptions are the guards and what the latest
runs have read. -/
theorem subscriptions_are_latest_reads (honest : m.Honest keeps) {g₀ g : Graph B V W}
    (blank : g₀.Blank keeps) {calls : List (Nat × Program B V W Unit)}
    (alone : ∀ call ∈ calls, call.2.HonestAlone keeps) (ran : runAll m calls g₀ = some g) :
    ∃ log, logAll m calls ⟨g₀, []⟩ = some ⟨g, log⟩ ∧ Subscribed g log := by
  obtain ⟨log, logged⟩ := exists_log (s := ⟨g₀, []⟩) ran
  exact ⟨log, logged, (blank.rested.calls honest alone logged).subscribed⟩

namespace Script

/-- An effect reads before, within and after a block without tracking, in which it creates another;
then it runs again. -/
def nestedReads : List (Nat × Code Unit) :=
  [.subscribe "guard" "x" [],
    .spawn "outer" [.read .get "x", .untracked [.read .get "y", .spawn "inner" [.read .get "z"]],
      .read .get "z"],
    .set "x" (.text "one")].map fun s => (8, statement s)

def unread : Graph Block Argument State :=
  begin 20 [("x", .text ""), ("y", .text ""), ("z", .text "")]

theorem subscriptions_are_latest_reads_nested :
    ∃ g log, runAll meaning nestedReads unread = some g ∧
    logAll meaning nestedReads ⟨unread, []⟩ = some ⟨g, log⟩ ∧
    [0, 1, 2].map (fun c => (g.cellView? c).map CellView.listeners) = [some 2, some 0, some 2] ∧
    [0, 1, 2].map (fun e => (g.effectView? e).map EffectView.dependencies) =
      [some 2, some 0, some 1] ∧
    Subscribed g log := by
  have alone : ∀ call ∈ nestedReads, call.2.HonestAlone Keeps := honest_script _
  have evaluated : (runAll meaning nestedReads unread).map (fun g =>
      ([0, 1, 2].map (fun c => (g.cellView? c).map CellView.listeners),
        [0, 1, 2].map fun e => (g.effectView? e).map EffectView.dependencies)) =
      some ([some 2, some 0, some 2], [some 2, some 0, some 1]) := by
    decide +kernel
  obtain ⟨g, ran, views⟩ := Option.map_eq_some_iff.1 evaluated
  have blank : unread.Blank Keeps := blank_begin 20 _
  obtain ⟨log, logged, subscribed⟩ := subscriptions_are_latest_reads honest_meaning blank alone ran
  exact ⟨g, log, ran, logged, congrArg Prod.fst views, congrArg Prod.snd views, subscribed⟩

end Script
end StoryPreview.Reactive
