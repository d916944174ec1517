import StoryPreview.Proofs.Reactive.Capturing
import StoryPreview.Proofs.Reactive.Fairness
import StoryPreview.Proofs.Reactive.Laws
import StoryPreview.Proofs.Reactive.UpToDate
/-!
Every run keeps a proper log, and its account agrees with the state at any moment.
-/
namespace StoryPreview.Reactive
variable {B V W : Type} {same : V → V → Bool} {keeps : W → ListenerId → Prop}

namespace Logged
variable {s s' : Logged B V W}

structure Sound (s : Logged B V W) : Prop where
  scopes : s.Scoped
  staffed : s.Staffed
  guarded : s.Guarded
  pinned : s.Pinned
  fairly : s.Fairly
  proper : Proper s.log

theorem Pinned.exists_round (h : s.Pinned) {l : ListenerId} {y : Listener B}
    (hy : s.graph.listeners[l]? = some y) (pinned : y.pins ≠ 0) :
    ∃ r ∈ s.account.rounds, l ∈ r.captured := by
  have pins := h.pins l
  simp only [Graph.pinsOf, hy, Option.map_some, Option.getD_some] at pins
  rw [pins, ← Nat.pos_iff_ne_zero, List.count_pos_iff] at pinned
  exact List.mem_flatMap.1 pinned

namespace Sound

theorem changed (h : s.Sound) (c : CellId) (v : V) :
    Lawful s.log (.changed c v (s.graph.liveSlots c)) := by
  refine .changed (((h.staffed.ordered.sorted c).imp Nat.ne_of_lt).filter _) (fun hl => ?_)
    fun {d l} hl hm => ?_
  · obtain ⟨b, attends⟩ := h.guarded.guards.1 hl
    exact attends.mem_liveSlots
  · obtain ⟨slot, live⟩ := Graph.mem_liveSlots.1 hl
    obtain rfl := h.guarded.home hm slot
    obtain ⟨y, b, hy, hr⟩ := h.guarded.plain hm
    refine ⟨rfl, ?_⟩
    by_cases guarded : y.guarded = true
    · exact .inl (h.guarded.guards.2 ⟨b, slot, by simp [hy, hr, guarded]⟩)
    · exact .inr (h.pinned.exists_round hy (by simpa [Graph.isLive, hy, Listener.isLive,
        guarded] using live))

/-- The innermost announcement has called all that it has captured. -/
theorem settled (h : s.Sound) {r : Round V} {layers : List (Layer V)}
    (top : s.account.layers = .round r :: layers) (done : r.pending = []) :
    Lawful s.log (.settled r.cell) := by
  refine .settled top done fun calm e he => ?_
  have fair : s.Fair r := h.fairly.fair r (rounds_of_round top ▸ List.mem_cons_self)
  rcases fair.heard calm e he with gone | ran | ⟨l, hl, -⟩
  · exact .inl gone
  · exact .inr ran
  · rw [done] at hl
    cases hl

theorem called (h : s.Sound) {r : Round V} {layers : List (Layer V)} {l : ListenerId}
    {ls : List ListenerId} (top : s.account.layers = .round r :: layers)
    (pending : r.pending = l :: ls) : Proper (s.log ++ [.called l r.value]) :=
  h.proper.concat (.called top pending)

/-- An effect that the innermost announcement calls may run again. -/
theorem reran (h : s.Sound) {r : Round V} {layers : List (Layer V)} {l : ListenerId}
    {ls : List ListenerId} {e : EffectId} (top : s.account.layers = .round r :: layers)
    (pending : r.pending = l :: ls) (hc : s.graph.Current l e) :
    Lawful (s.log ++ [.called l r.value]) (.reran e) := by
  have hr : r ∈ s.account.rounds := rounds_of_round top ▸ List.mem_cons_self
  have captured : l ∈ r.captured :=
    (h.proper.orderly r hr).pending.subset (pending ▸ List.mem_cons_self)
  obtain ⟨read, due, fresh⟩ := (h.fairly.fair r hr).due captured hc
  have rests := h.staffed.current_rests hc
  obtain ⟨x, hx, undisposed, -⟩ := hc
  have present : e ∉ s.account.gone :=
    fun gone => nomatch undisposed.symm.trans ((h.staffed.tallied hx).gone.2 gone)
  have account : Reactive.account (s.log ++ [.called l r.value]) =
      { s.account with layers := .call l :: .round { r with pending := ls } :: layers } :=
    account_hear (f := id) top pending
  have known : e < s.account.effects := h.staffed.count ▸ (List.getElem?_eq_some_iff.1 hx).1
  refine .reran (r := { r with pending := ls }) (l := l) (congrArg Account.layers account) ?_ ?_ due
    fresh ?_ ?_ <;> rw [account]
  · exact known
  · exact read
  · exact present
  · rw [Account.running, top] at rests
    exact rests

end Sound

theorem Move.proper (move : Move same keeps s s') (h : s.Sound) : Proper s'.log := by
  have still : Proper (s.log ++ []) := by
    rw [List.append_nil]
    exact h.proper
  cases move with
  | aside => exact still
  | create => exact still
  | read => exact h.proper.concat (.read _)
  | change hz differs changed =>
    obtain ⟨rfl, log, -⟩ := of_change hz differs changed
    rw [log]
    exact h.proper.concat (h.changed _ _)
  | hear top pending => exact h.called top pending
  | @skip r _ l _ _ _ _ _ _ top pending =>
    have account := account_hear (f := id) (v := r.value) top pending
    have returned : Lawful (s.log ++ [.called l r.value]) (.returned l) :=
      .returned (congrArg Account.layers account)
    exact (h.called top pending).twice returned
  | rerun top pending hy target hx undisposed resting =>
    exact (h.called top pending).twice (h.reran top pending ⟨_, hx, undisposed, _, hy, target⟩)
  | leave top => exact h.proper.concat (.returned top)
  | settle top done => exact h.proper.concat (h.settled top done)
  | suspend => exact h.proper.concat .suspended
  | resume top => exact h.proper.concat (.resumed top)
  | subscribe c body =>
    change Proper (s.log ++ if c < s.graph.cells.length then _ else _)
    split
    · exact h.proper.concat (.subscribed c fun d hm => Nat.lt_irrefl _ (h.guarded.known hm))
    · exact still
  | release => exact h.proper.concat (.released _)
  | spawn =>
    have next : Lawful s.log (.spawned s.account.effects) := .spawned
    exact h.proper.concat (h.staffed.count ▸ next)
  | finish top => exact h.proper.concat (.ended top)
  | dispose e => exact h.proper.concat (.disposed e)
  | drop e => exact h.proper.concat (.dropped e)

theorem Move.sound (move : Move same keeps s s') (h : s.Sound) : s'.Sound where
  scopes := move.scoped h.scopes
  staffed := (move.advances h.scopes h.staffed).staffed
  guarded := move.guarded h.staffed h.guarded
  pinned := move.pinned h.staffed.ordered h.pinned
  fairly := move.fairly h.scopes h.staffed h.fairly
  proper := move.proper h

/-! ### Runs from outside -/

/-- Nothing is under way, and the listeners that the world keeps have been attached by
themselves. -/
structure Rested (keeps : W → ListenerId → Prop) (s : Logged B V W) : Prop extends s.Sound where
  kept : s.Kept keeps
  idle : s.account.layers = []

variable {m : Meaning B V W}

theorem Rested.completes (h : s.Rested keeps) (completed : Completes same keeps s s') :
    s'.Rested keeps := by
  have shape : s'.account.layers.map Layer.shape = s.account.layers.map Layer.shape :=
    completed.shape
  rw [h.idle] at shape
  exact ⟨completed.moves.keep Move.sound h.toSound, completed.kept h.kept,
    List.map_eq_nil_iff.1 shape⟩

theorem Rested.calls (h : s.Rested keeps) (honest : m.Honest keeps)
    {calls : List (Nat × Program B V W Unit)} (alone : ∀ call ∈ calls, call.2.HonestAlone keeps)
    (ran : logAll m calls s = some s') : s'.Rested keeps :=
  h.completes (completes_logAll honest alone False.elim ran h.kept)

end Logged

structure Graph.Blank (keeps : W → ListenerId → Prop) (g : Graph B V W) :
    Prop extends g.Bare keeps where
  listeners : g.listeners = []
  slots : ∀ c, g.slotsOf c = []

theorem Graph.Blank.rested {g : Graph B V W} (h : g.Blank keeps) : Logged.Rested keeps ⟨g, []⟩ := by
  have noEffect {e : EffectId} {x : Effect B} (hx : g.effects[e]? = some x) : False := by
    simp [h.effects] at hx
  have noListener {l : ListenerId} {y : Listener B} (hy : g.listeners[l]? = some y) : False := by
    simp [h.listeners] at hy
  have noSlot {l : ListenerId} {c : CellId} (hl : l ∈ g.slotsOf c) : False := by
    simp [h.slots] at hl
  have unscoped {cells : List CellId} (hcs : Scope.tracked cells ∈ g.scopes) : False := by
    simp [h.scopes] at hcs
  have scopes : Logged.Scoped ⟨g, ([] : List (Mark V))⟩ :=
    ⟨h.scopes, fun hcs => (unscoped hcs).elim, fun hcs => (unscoped hcs).elim⟩
  have fastened : g.Fastened fun _ => [] :=
    ⟨fun hx => (noEffect hx).elim, fun hx => (noEffect hx).elim, fun hx => (noEffect hx).elim,
      fun ha => (noSlot ha.1).elim, fun ht => (noListener ht.choose_spec.1).elim, fun hl =>
        (noSlot hl).elim, fun _ => List.nodup_nil, fun _ => rfl⟩
  have staffed : Logged.Staffed ⟨g, ([] : List (Mark V))⟩ := by
    refine ⟨⟨fun hl => (noSlot hl).elim, fun c => ?_⟩, fastened, ?_, fun hx => (noEffect hx).elim,
      ?_, List.nodup_nil⟩
    · rw [h.slots]
      exact List.Pairwise.nil
    · exact (congrArg List.length h.effects).symm
    · rintro e (he | he) <;> cases he
  have guarded : Logged.Guarded ⟨g, ([] : List (Mark V))⟩ := by
    refine ⟨nofun, nofun, ?_, List.nodup_nil⟩
    exact fun {c l} => iff_of_false nofun fun ha => noSlot ha.choose_spec.1
  have pinned : Logged.Pinned ⟨g, ([] : List (Mark V))⟩ := by
    refine ⟨fun l => Graph.pinsOf_none ?_, nofun⟩
    simp [h.listeners]
  exact ⟨⟨scopes, staffed, guarded, pinned, ⟨nofun, nofun⟩, .nil⟩, fun l hl => h.kept hl, rfl⟩

theorem Script.blank_begin (budget : Nat) (cells : Entries Argument) :
    (Script.begin budget cells).Blank Script.Keeps := by
  let Blank (g : Graph Script.Block Argument Script.State) : Prop := g.listeners = [] ∧
    ∀ c, g.slotsOf c = []
  have blank : Blank (Script.begin budget cells) :=
    List.foldlRecOn (motive := Blank) cells _ ⟨rfl, fun _ => rfl⟩ fun g blank cell _ =>
      ⟨blank.1, fun c => (congrFun (g.slotsOf_addCell cell.2) c).trans (blank.2 c)⟩
  exact ⟨Script.bare_begin budget cells, blank.1, blank.2⟩

theorem Script.honest_script (statements : List Statement) :
    ∀ call ∈ statements.map fun s => (8, statement s), call.2.HonestAlone Keeps := by
  intro call hc
  obtain ⟨s, -, rfl⟩ := List.mem_map.1 hc
  exact honest_statement s

end StoryPreview.Reactive
