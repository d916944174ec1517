import StoryPreview.Proofs.Reactive.Bookkeeping
import StoryPreview.Proofs.Reactive.Turns
/-!
What a log tells about listeners. At any moment of any run the account of the log knows the
listeners that have been attached by themselves and not been given up, and how many announcements
have captured a listener.
-/
namespace StoryPreview.Reactive
variable {B V W : Type} {same : V → V → Bool} {keeps : W → ListenerId → Prop}

namespace Graph
variable {g g' : Graph B V W} {l : ListenerId} {c : CellId} {e : EffectId} {x : Effect B} {b : B}

/-- Listeners with a body of their own are left alone when an effect gives its listeners up. -/
theorem attends_call_releases {ls : List ListenerId}
    (targets : ∀ l ∈ ls, ∃ e epoch, g.Targets l e epoch) (cells : g'.cells = g.cells)
    (listeners : g'.listeners = (g.releaseAll ls).listeners) :
    g'.Attends l c (.call b) ↔ g.Attends l c (.call b) := by
  have released : g'.Attends l c (.call b) ↔ (g.releaseAll ls).Attends l c (.call b) := by
    rw [Attends, Attends, slotsOf_congr cells, listeners, slotsOf_releaseAll]
  rw [released, attends_releaseAll]
  refine and_iff_left_of_imp fun attends hl => ?_
  obtain ⟨y, hy, heq⟩ := Option.map_eq_some_iff.1 attends.2
  obtain ⟨e, epoch, z, hz, hr⟩ := targets l hl
  obtain rfl := Option.some.inj (hy.symm.trans hz)
  cases hr.symm.trans (congrArg Prod.fst heq)

theorem attends_call_attach (ordered : g.Ordered) {epoch : Nat} {cs : List CellId} :
    (g.attach e epoch cs).2.Attends l c (.call b) ↔ g.Attends l c (.call b) :=
  ⟨fun h => (h.of_attach ordered).resolve_right nofun, fun h => h.attach ordered⟩

theorem attends_call_finish (ordered : g.Ordered) : (g.finish e).Attends l c (.call b) ↔
    g.Attends l c (.call b) := by
  have popped : g.pop.Ordered := ordered.thin (fun _ => .refl _) (Nat.le_refl _)
  rcases g.finish_cases e with ⟨effects, -, finished⟩ | ⟨x, hx, undisposed⟩
  · rw [finished]
    exact Iff.rfl
  · rw [finish_eq hx undisposed]
    exact attends_call_attach popped

theorem mem_slotsOf_finish (hl : l < g.listeners.length) (hs : l ∈ (g.finish e).slotsOf c) :
    l ∈ g.slotsOf c := by
  rcases g.finish_cases e with ⟨effects, -, finished⟩ | ⟨x, hx, undisposed⟩
  · rwa [finished] at hs
  · rw [finish_eq hx undisposed] at hs
    exact (mem_slotsOf_attach (g := g.pop) hs).resolve_right fun new => Nat.not_le_of_lt hl new.2

end Graph

namespace Logged
variable {s s' : Logged B V W}

/-! ### Guards -/

structure Guarded (s : Logged B V W) : Prop where
  plain : ∀ {c : CellId} {l : ListenerId}, Mark.subscribed c l ∈ s.log → s.graph.Plain l
  home : ∀ {c d : CellId} {l : ListenerId}, Mark.subscribed d l ∈ s.log →
    l ∈ s.graph.slotsOf c → d = c
  guards : ∀ {c : CellId} {l : ListenerId}, (c, l) ∈ s.account.guards ↔
    ∃ b, s.graph.Attends l c (.call b)
  nodup : s.account.guards.Nodup

theorem Guarded.known (h : s.Guarded) {c : CellId} {l : ListenerId}
    (hm : Mark.subscribed c l ∈ s.log) : l < s.graph.listeners.length :=
  (List.getElem?_eq_some_iff.1 (h.plain hm).choose_spec.choose_spec.1).1

theorem Guarded.still (h : s.Guarded) {marks : List (Mark V)} (lasting : s.graph.Lasting s'.graph)
    (log : s'.log = s.log ++ marks)
    (none : ∀ {c : CellId} {l : ListenerId}, Mark.subscribed c l ∉ marks)
    (guards : s'.account.guards = s.account.guards)
    (slots : ∀ {l : ListenerId} {c : CellId}, l < s.graph.listeners.length →
      l ∈ s'.graph.slotsOf c → l ∈ s.graph.slotsOf c)
    (attends : ∀ {l : ListenerId} {c : CellId} {b : B}, s'.graph.Attends l c (.call b) ↔
      s.graph.Attends l c (.call b)) :
    s'.Guarded where
  plain := by
    intro c l hm
    rw [log, List.mem_append] at hm
    exact (h.plain (hm.resolve_right none)).lasting lasting
  home := by
    intro c d l hm hl
    rw [log, List.mem_append] at hm
    have old := hm.resolve_right none
    exact h.home old (slots (h.known old) hl)
  guards := by
    intro c l
    rw [guards, h.guards]
    simp only [attends]
  nodup := guards ▸ h.nodup

theorem Guarded.subscribe (h : s.Guarded) (ordered : s.graph.Ordered) {c : CellId} {body : B}
    (lasting : s.graph.Lasting (s.subscribe c body).graph) : (s.subscribe c body).Guarded where
  plain := by
    intro d l hm
    rcases List.mem_append.1 hm with old | new
    · exact (h.plain old).lasting lasting
    · split at new
      · cases List.mem_singleton.1 new
        exact ⟨_, body, Graph.subscribe_listener_new c _, rfl⟩
      · cases new
  home := by
    intro d k l hm hl
    have slot : l ∈ (s.graph.subscribe c (.call body)).2.slotsOf d := hl
    rw [Graph.slotsOf_subscribe, List.mem_append] at slot
    rcases List.mem_append.1 hm with old | new
    · refine h.home old (slot.resolve_right fun hl => ?_)
      split at hl
      · exact Nat.lt_irrefl _ (List.mem_singleton.1 hl ▸ h.known old)
      · cases hl
    · split at new
      · cases List.mem_singleton.1 new
        have fresh : s.graph.listeners.length ∉ s.graph.slotsOf d :=
          fun hl => Nat.lt_irrefl _ (ordered.slot_lt hl)
        have new := slot.resolve_left fresh
        split at new
        · rename_i hc
          exact hc.1
        · cases new
      · cases new
  guards := by
    intro d l
    have attends (b : B) : (s.subscribe c body).graph.Attends l d (.call b) ↔ _ :=
      Graph.attends_subscribe ordered
    simp only [attends, account_subscribe, exists_or, ← h.guards]
    by_cases hc : c < s.graph.cells.length
    · rw [if_pos hc, List.mem_append, List.mem_singleton, Prod.mk.injEq]
      refine or_congr_right ⟨?_, ?_⟩
      · rintro ⟨rfl, rfl⟩
        exact ⟨body, rfl, rfl, hc, rfl⟩
      · rintro ⟨b, hl, hd, -⟩
        exact ⟨hd, hl⟩
    · rw [if_neg hc]
      refine (or_iff_left ?_).symm
      rintro ⟨b, -, rfl, hd, -⟩
      exact hc hd
  nodup := by
    rw [account_subscribe]
    split
    · refine List.nodup_append.2 ⟨h.nodup, by simp, ?_⟩
      rintro p hp q hq rfl
      obtain rfl := List.mem_singleton.1 hq
      obtain ⟨b, attends⟩ := h.guards.1 hp
      exact Nat.lt_irrefl _ (ordered.slot_lt attends.1)
    · exact h.nodup

theorem Guarded.release (h : s.Guarded) {l : ListenerId}
    (lasting : s.graph.Lasting (s.step [.released l] (·.release l)).graph) :
    (s.step [.released l] (·.release l)).Guarded where
  plain := by
    intro d k hm
    exact (h.plain ((List.mem_append.1 hm).resolve_right (by simp))).lasting lasting
  home := fun hm hl => h.home ((List.mem_append.1 hm).resolve_right (by simp)) hl
  guards := by
    intro d k
    have attends (b : B) : (s.graph.release l).Attends k d (.call b) ↔ _ :=
      Graph.attends_releaseAll [l]
    rw [account_mark]
    refine List.mem_filter.trans ?_
    rw [h.guards, exists_and_right.symm]
    refine exists_congr fun b => ?_
    rw [show (s.step [.released l] (·.release l)).graph.Attends k d (.call b) ↔ _ from attends b]
    simp
  nodup := by
    rw [account_mark]
    exact h.nodup.filter _

/-- An effect that is given up takes no other listeners with it. -/
theorem Staffed.attends_call_retire (h : s.Staffed) {e : EffectId} {g' : Graph B V W}
    (givesUp : s.graph.GivesUp e g') {l : ListenerId} {c : CellId} {b : B} :
    g'.Attends l c (.call b) ↔ s.graph.Attends l c (.call b) := by
  cases hx : s.graph.effects[e]? with
  | none => rw [givesUp.unborn hx]
  | some x =>
    obtain ⟨x', retires⟩ := givesUp.retires hx fun disposed =>
      ⟨h.fastened.loose hx (.inl disposed), (h.tallied hx).loss disposed⟩
    exact Graph.attends_call_releases (fun k hk => ⟨e, x.epoch, h.fastened.target hx hk⟩)
      retires.cells retires.listeners

theorem Guarded.idle (h : s.Guarded) {marks : List (Mark V)} (lasting : s.graph.Lasting s'.graph)
    (log : s'.log = s.log ++ marks)
    (none : ∀ {c : CellId} {l : ListenerId}, Mark.subscribed c l ∉ marks)
    (guards : s'.account.guards = s.account.guards) (idle : s.graph.Idle s'.graph) : s'.Guarded :=
  h.still lasting log none guards (fun _ hl => (idle.slots _).subset hl) idle.attends

theorem Move.guarded (move : Move same keeps s s') (staffed : s.Staffed) (h : s.Guarded) :
    s'.Guarded := by
  have lasting : s.graph.Lasting s'.graph := move.lasting
  cases move with
  | aside parts =>
    exact h.idle lasting rfl (by simp) (by rw [account_still])
      (.of_eq parts.cells parts.listeners parts.effects)
  | create v => exact h.idle lasting rfl (by simp) (by rw [account_still]) (.addCell s.graph v)
  | @read c =>
    exact h.idle lasting rfl (by simp) (by rw [account_mark]; rfl)
      (.of_eq (s.graph.track_cells c) (s.graph.track_listeners c) (s.graph.track_effects c))
  | change hz differs changed =>
    obtain ⟨rfl, log, alike⟩ := of_change hz differs changed
    exact h.idle lasting log (by simp) (by rw [account_change log]; rfl)
      ((Graph.Idle.withCell s.graph (List.getElem?_eq_some_iff.1 hz).1 _ _).trans (.alike alike))
  | hear top pending =>
    exact h.idle lasting rfl (by simp) (by rw [account_hear top pending]) (.of_eq rfl rfl rfl)
  | skip top pending hy target hx off parts =>
    exact h.idle lasting rfl (by simp) (by rw [account_skip top pending])
      (.of_eq parts.cells parts.listeners parts.effects)
  | @rerun r _ l _ _ e x top pending hy target hx undisposed resting =>
    refine h.still lasting rfl (by simp) (by rw [account_rerun top pending]) (fun _ hl => ?_) ?_
    · exact Graph.slotsOf_congr (g := s.graph.record (.called l r.value)) Graph.start_cells ▸ hl
    · exact Graph.attends_call_releases (g := s.graph.record (.called l r.value))
        (fun k hk => ⟨e, x.epoch, staffed.fastened.target hx hk⟩) Graph.start_cells rfl
  | leave top => exact h.idle lasting rfl (by simp) (by rw [account_leave top]) (.of_eq rfl rfl rfl)
  | @settle r _ top =>
    exact h.idle lasting rfl (by simp) (by rw [account_settle top])
      (.alike (Graph.Alike.foldl Graph.Alike.unpin r.captured s.graph))
  | suspend => exact h.idle lasting rfl (by simp) (by rw [account_suspend]) (.of_eq rfl rfl rfl)
  | resume top =>
    exact h.idle lasting rfl (by simp) (by rw [account_resume top]) (.of_eq rfl rfl rfl)
  | subscribe c body => exact h.subscribe staffed.ordered lasting
  | release plain => exact h.release lasting
  | spawn body =>
    refine h.still lasting rfl (by simp) (by rw [account_mark]; rfl) (fun _ hl => ?_) ?_
    · exact Graph.slotsOf_congr (g := (s.graph.addEffect body).2) Graph.start_cells ▸ hl
    · exact Graph.attends_call_releases (g := (s.graph.addEffect body).2)
        (by simp) Graph.start_cells rfl
  | finish top =>
    exact h.still lasting rfl (by simp) (by rw [account_finish top]) Graph.mem_slotsOf_finish
      (Graph.attends_call_finish staffed.ordered)
  | dispose e =>
    exact h.still lasting rfl (by simp) (by rw [account_dispose]) (fun _ hl =>
      Graph.slotsOf_congr Graph.dispose_cells ▸ hl)
      (staffed.attends_call_retire (s.graph.dispose_givesUp e))
  | drop e =>
    exact h.still lasting rfl (by simp) (by rw [account_drop]) (fun _ hl =>
      Graph.slotsOf_congr Graph.drop_cells ▸ hl)
      (staffed.attends_call_retire (s.graph.drop_givesUp e))

/-! ### Captures -/

def captures (s : Logged B V W) : List ListenerId := s.account.rounds.flatMap Round.captured

structure Pinned (s : Logged B V W) : Prop where
  pins : ∀ l, s.graph.pinsOf l = s.captures.count l
  old : ∀ {l : ListenerId}, l ∈ s.captures → l < s.graph.listeners.length

theorem Pinned.still (h : s.Pinned) (pins : s'.graph.pinsOf = s.graph.pinsOf)
    (captures : s'.captures = s.captures)
    (grown : s.graph.listeners.length ≤ s'.graph.listeners.length) : s'.Pinned where
  pins := by rw [pins, captures]; exact h.pins
  old := by
    intro l hl
    exact Nat.lt_of_lt_of_le (h.old (captures ▸ hl)) grown

theorem captures_stir (layers : List (Layer V)) :
    ((layers.map Layer.stir).filterMap Layer.round?).flatMap Round.captured =
      (layers.filterMap Layer.round?).flatMap Round.captured := by
  rw [Layer.filterMap_round_stir, List.flatMap_map]
  rfl

theorem Pinned.change (h : s.Pinned) (ordered : s.graph.Ordered) {c : CellId} {v : V} {z : Cell V}
    {ls : List ListenerId} (hz : s.graph.cells[c]? = some z) (differs : same z.value v = false)
    (changed : s.change same c v = some (ls, s')) : s'.Pinned := by
  obtain ⟨hls, log, alike⟩ := of_change hz differs changed
  have assigned : s.graph.assign same c v = some (ls, s'.graph) := by
    obtain ⟨r, assigned, heq⟩ := Option.map_eq_some_iff.1 changed
    obtain ⟨rfl, rfl⟩ := Prod.mk.inj heq
    exact assigned
  have captures : s'.captures = ls ++ s.captures := by
    rw [Logged.captures, account_change log]
    exact congrArg (ls ++ ·) (captures_stir s.account.layers)
  have live {l : ListenerId} (hl : l ∈ ls) : l < s.graph.listeners.length := by
    rw [hls] at hl
    exact ordered.slot_lt (List.mem_of_mem_filter hl)
  constructor
  case pins =>
    intro l
    rw [captures, List.count_append, Nat.add_comm, ← h.pins]
    by_cases hl : l < s.graph.listeners.length
    · exact Graph.pinsOf_assign assigned hl
    · have hle := Nat.le_of_not_lt hl
      rw [Graph.pinsOf_none hle, Graph.pinsOf_none (Nat.le_trans alike.symm.length_le hle),
        List.count_eq_zero.2 fun hm => hl (live hm)]
  case old =>
    intro l hl
    rw [captures] at hl
    exact Nat.lt_of_lt_of_le ((List.mem_append.1 hl).elim live h.old) alike.length_le

theorem Pinned.settle (h : s.Pinned) {r : Round V} {layers : List (Layer V)}
    (top : s.account.layers = .round r :: layers) :
    (s.step [.settled r.cell] (r.captured.foldl Graph.unpin)).Pinned := by
  have before : s.captures = r.captured ++
      (layers.filterMap Layer.round?).flatMap Round.captured := by
    rw [captures, rounds_of_round top]
    rfl
  have captures : (s.step [.settled r.cell] (r.captured.foldl Graph.unpin)).captures =
      (layers.filterMap Layer.round?).flatMap Round.captured := by
    rw [captures, account_settle top]
    rfl
  have alike := Graph.Alike.foldl Graph.Alike.unpin r.captured s.graph
  constructor
  case pins =>
    intro l
    have pins := h.pins l
    rw [before, List.count_append] at pins
    refine (Graph.pinsOf_unpinAll r.captured l).trans ?_
    rw [captures, pins, Nat.add_sub_cancel_left]
  case old =>
    intro l hl
    rw [captures] at hl
    exact Nat.lt_of_lt_of_le (h.old (before ▸ List.mem_append_right _ hl)) alike.length_le

theorem Move.pinned (move : Move same keeps s s') (ordered : s.graph.Ordered) (h : s.Pinned) :
    s'.Pinned := by
  have grown := move.grows
  cases move with
  | aside parts =>
    exact h.still (Graph.pinsOf_congr parts.listeners) (by rw [captures, account_still]; rfl) grown
  | create v => exact h.still (Graph.pinsOf_congr rfl) (by rw [captures, account_still]; rfl) grown
  | @read c _ hz =>
    refine h.still (Graph.pinsOf_congr (s.graph.track_listeners c)) ?_ grown
    rw [captures, account_mark]
    exact congrArg _ (Layer.filterMap_round_credit c s.account.layers)
  | change hz differs changed => exact h.change ordered hz differs changed
  | hear top pending =>
    refine h.still (Graph.pinsOf_congr rfl) ?_ grown
    rw [captures, captures, account_hear top pending, rounds_of_round top]
    rfl
  | skip top pending hy target hx off parts =>
    refine h.still (Graph.pinsOf_congr parts.listeners) ?_ grown
    rw [captures, captures, account_skip top pending, rounds_of_round top]
    rfl
  | @rerun r _ l _ _ e x top pending hy target hx undisposed resting =>
    refine h.still (Graph.pinsOf_releaseAll (g := s.graph.record (.called l r.value))
      x.subscriptions) ?_ grown
    rw [captures, captures, account_rerun top pending, rounds_of_round top]
    rfl
  | leave top =>
    refine h.still (Graph.pinsOf_congr rfl) ?_ grown
    rw [captures, captures, account_leave top, rounds_of_none top rfl]
    rfl
  | settle top => exact h.settle top
  | suspend => exact h.still (Graph.pinsOf_congr rfl) (by rw [captures, account_suspend]; rfl) grown
  | resume top =>
    refine h.still (Graph.pinsOf_congr rfl) ?_ grown
    rw [captures, captures, account_resume top, rounds_of_none top rfl]
    rfl
  | subscribe c body =>
    refine h.still (Graph.pinsOf_subscribe c _) ?_ grown
    rw [captures, account_subscribe]
    split <;> rfl
  | release plain =>
    exact h.still (Graph.pinsOf_releaseAll [_]) (by rw [captures, account_mark]; rfl) grown
  | spawn body =>
    refine h.still (Graph.pinsOf_releaseAll (g := (s.graph.addEffect body).2) []) ?_ grown
    rw [captures, account_mark]
    rfl
  | @finish e _ _ top =>
    refine h.still (s.graph.pinsOf_finish e) ?_ grown
    rw [captures, captures, account_finish top, rounds_of_none top rfl]
    rfl
  | dispose e =>
    exact h.still (Graph.pinsOf_dispose e) (by rw [captures, account_dispose]; rfl) grown
  | drop e => exact h.still (Graph.pinsOf_drop e) (by rw [captures, account_drop]; rfl) grown

end Logged
end StoryPreview.Reactive
