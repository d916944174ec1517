import StoryPreview.Proofs.Reactive.Bookkeeping
/-!
Announcements are fair. An announcement makes only effects run again that depended on the cell when
it changed, and each of them at most once; as long as nothing else changes it is still going to call
those that have not run.
-/
namespace StoryPreview.Reactive
variable {B V W : Type} {same : V → V → Bool} {keeps : W → ListenerId → Prop}

namespace Graph
variable {g : Graph B V W} {l : ListenerId} {c : CellId} {e : EffectId} {x : Effect B}
    {r : Reaction B}

theorem mem_liveSlots : l ∈ g.liveSlots c ↔ l ∈ g.slotsOf c ∧ g.isLive l = true := List.mem_filter

theorem Attends.mem_liveSlots (h : g.Attends l c r) : l ∈ g.liveSlots c := by
  obtain ⟨y, hy, heq⟩ := Option.map_eq_some_iff.1 h.2
  have guarded : y.guarded = true := congrArg Prod.snd heq
  exact Graph.mem_liveSlots.2 ⟨h.1, by simp [isLive, hy, Listener.isLive, guarded]⟩

/-- An effect that rests is fastened to each cell that its latest run has read. -/
theorem Fastened.exists_attends {latest : EffectId → List CellId} (h : g.Fastened latest)
    (hx : g.effects[e]? = some x) (undisposed : x.disposed = false) (resting : x.running = false)
    (hc : c ∈ latest e) : ∃ l, g.Attends l c (.rerun e x.epoch) := by
  obtain ⟨i, hi, rfl⟩ := List.mem_iff_getElem.1 hc
  have hi' : i < x.subscriptions.length := h.length hx undisposed resting ▸ hi
  have pair : (x.subscriptions[i], (latest e)[i]) ∈ x.subscriptions.zip (latest e) := by
    rw [← List.getElem_zip (h := List.length_zip ▸ Nat.lt_min.2 ⟨hi', hi⟩)]
    exact List.getElem_mem _
  exact ⟨_, h.links hx pair⟩

end Graph

theorem Account.mem_readers {a : Account V} {c : CellId} {e : EffectId} :
    e ∈ a.readers c ↔ e < a.effects ∧ e ∉ a.gone ∧ c ∈ a.latest e := by
  simp [readers]

namespace Logged
variable {s s' : Logged B V W} {r : Round V} {l : ListenerId} {ls : List ListenerId} {e : EffectId}

structure Fair (s : Logged B V W) (r : Round V) : Prop where
  old : ∀ l ∈ r.captured, l < s.graph.listeners.length
  due : ∀ {l : ListenerId} {e : EffectId}, l ∈ r.captured → s.graph.Current l e →
    r.cell ∈ s.account.latest e ∧ e ∈ r.due ∧ e ∉ r.ran
  heard : r.calm = true → ∀ e ∈ r.due, e ∈ s.account.gone ∨ e ∈ r.ran ∨
    ∃ l ∈ r.pending, s.graph.Current l e

namespace Fair

/-- An announcement goes on while something happens, unless an effect runs that it is about to
call. -/
theorem carried (h : s.Fair r) (staffed : s.Staffed) (carries : s.Carries s')
    (grown : s.graph.listeners.length ≤ s'.graph.listeners.length)
    (rests : r.calm = true → ∀ e < s.graph.effects.length, e ∈ s'.account.running →
      e ∈ s.account.running) : s'.Fair r where
  old := fun l hl => Nat.lt_of_lt_of_le (h.old l hl) grown
  due := by
    intro l e hl hc
    obtain ⟨before, latest⟩ := carries.back (h.old l hl) hc
    rw [latest]
    exact h.due hl before
  heard := by
    intro calm e he
    rcases h.heard calm e he with gone | ran | ⟨l, hl, hc⟩
    · exact .inl (carries.gone gone)
    · exact .inr (.inl ran)
    · have hlt : e < s.graph.effects.length := (List.getElem?_eq_some_iff.1 hc.choose_spec.1).1
      rcases carries.forth hc with gone | running | after
      · exact .inl gone
      · exact absurd (rests calm e hlt running) (staffed.current_rests hc)
      · exact .inr (.inr ⟨l, hl, after⟩)

theorem stirred (h : s.Fair r) : s.Fair r.stirred := { h with heard := nofun }

/-- A listener is called that makes no effect run again. -/
theorem skip (h : s.Fair r) (pending : r.pending = l :: ls) (idle : ∀ e, ¬ s.graph.Current l e) :
    s.Fair { r with pending := ls } :=
  { h with
    heard := by
      intro calm e he
      rcases h.heard calm e he with gone | ran | ⟨k, hk, hc⟩
      · exact .inl gone
      · exact .inr (.inl ran)
      · rw [pending] at hk
        rcases List.mem_cons.1 hk with rfl | hk
        · exact absurd hc (idle e)
        · exact .inr (.inr ⟨k, hk, hc⟩) }

theorem rerun (h : s.Fair r) (staffed : s.Staffed) (advances : s.Advances s')
    (grown : s.graph.listeners.length ≤ s'.graph.listeners.length) (pending : r.pending = l :: ls)
    (hc : s.graph.Current l e) (running : s'.account.running = e :: s.account.running) :
    s'.Fair { r with pending := ls, ran := r.ran ++ [e] } := by
  constructor
  case old => exact fun k hk => Nat.lt_of_lt_of_le (h.old k hk) grown
  case due =>
    intro k d hk hd
    obtain ⟨before, latest⟩ := advances.carries.back (h.old k hk) hd
    obtain ⟨cell, due, fresh⟩ := h.due hk before
    have hde : d ≠ e := by
      rintro rfl
      exact advances.staffed.current_rests hd (running ▸ List.mem_cons_self)
    rw [latest]
    exact ⟨cell, due, by simp [fresh, hde]⟩
  case heard =>
    intro calm d hd
    rcases h.heard calm d hd with gone | ran | ⟨k, hk, hk'⟩
    · exact .inl (advances.carries.gone gone)
    · exact .inr (.inl (List.mem_append_left _ ran))
    · rcases advances.carries.forth hk' with gone | now | after
      · exact .inl gone
      · rw [running] at now
        have hde := (List.mem_cons.1 now).resolve_right (staffed.current_rests hk')
        exact .inr (.inl (by simp [hde]))
      · rw [pending] at hk
        rcases List.mem_cons.1 hk with rfl | hk
        · obtain ⟨x, -, -, ht⟩ := hc
          obtain ⟨z, -, -, ht'⟩ := hk'
          exact .inr (.inl (by simp [(ht'.unique ht).1]))
        · exact .inr (.inr ⟨k, hk, after⟩)

theorem begin (staffed : s.Staffed) (carries : s.Carries s') (leaves : s.graph.Leaves s'.graph)
    {c : CellId} {v : V} (grown : s.graph.listeners.length ≤ s'.graph.listeners.length) :
    s'.Fair (s.account.announcement c v (s.graph.liveSlots c)) where
  old := fun l hl => Nat.lt_of_lt_of_le (staffed.ordered.slot_lt (Graph.mem_liveSlots.1 hl).1) grown
  due := by
    intro l e hl hc
    have slot := (Graph.mem_liveSlots.1 hl).1
    obtain ⟨before, latest⟩ := carries.back (staffed.ordered.slot_lt slot) hc
    have read := staffed.fastened.read slot before
    obtain ⟨x, hx, undisposed, -⟩ := id before
    have known : e < s.account.effects := staffed.count ▸ (List.getElem?_eq_some_iff.1 hx).1
    have present : e ∉ s.account.gone :=
      fun gone => nomatch undisposed.symm.trans ((staffed.tallied hx).gone.2 gone)
    refine ⟨latest ▸ read, List.mem_filter.2 ⟨Account.mem_readers.2 ⟨known, present, read⟩, ?_⟩,
      List.not_mem_nil⟩
    exact decide_eq_true (staffed.current_rests before)
  heard := by
    intro _ e he
    obtain ⟨reader, resting⟩ := List.mem_filter.1 he
    obtain ⟨known, present, read⟩ := Account.mem_readers.1 reader
    rw [staffed.count] at known
    have hx := List.getElem?_eq_getElem known
    have tallied := staffed.tallied hx
    have undisposed := Bool.eq_false_iff.2 fun disposed => present (tallied.gone.1 disposed)
    have rests := Bool.eq_false_iff.2 fun running =>
      of_decide_eq_true resting (tallied.running.1 running)
    obtain ⟨l, attends⟩ := staffed.fastened.exists_attends hx undisposed rests read
    exact .inr (.inr ⟨l, attends.mem_liveSlots,
      leaves.current.2 ⟨_, hx, undisposed, attends.target⟩⟩)

end Fair

structure Fairly (s : Logged B V W) : Prop where
  fair : ∀ r ∈ s.account.rounds, s.Fair r
  stirred : ∀ r ∈ s.account.rounds.tail, r.calm = false

theorem Fairly.still (h : s.Fairly) (staffed : s.Staffed) (carries : s.Carries s')
    (grown : s.graph.listeners.length ≤ s'.graph.listeners.length)
    (rounds : s'.account.rounds = s.account.rounds)
    (rests : ∀ e < s.graph.effects.length, e ∈ s'.account.running → e ∈ s.account.running) :
    s'.Fairly where
  fair := by
    rw [rounds]
    exact fun r hr => (h.fair r hr).carried staffed carries grown fun _ => rests
  stirred := rounds ▸ h.stirred

/-- The innermost announcement goes on. -/
theorem Fairly.next (h : s.Fairly) (staffed : s.Staffed) (carries : s.Carries s')
    (grown : s.graph.listeners.length ≤ s'.graph.listeners.length) {r' : Round V}
    {rest : List (Round V)} (before : s.account.rounds = r :: rest)
    (rounds : s'.account.rounds = r' :: rest) (fair : s'.Fair r') : s'.Fairly := by
  have stirred := h.stirred
  rw [before, List.tail_cons] at stirred
  constructor
  · rw [rounds]
    refine List.forall_mem_cons.2 ⟨fair, fun k hk => ?_⟩
    have outer := h.fair k (before ▸ List.mem_cons_of_mem _ hk)
    exact outer.carried staffed carries grown fun calm =>
      absurd ((stirred k hk).symm.trans calm) Bool.false_ne_true
  · rw [rounds, List.tail_cons]
    exact stirred

/-- A new announcement becomes the innermost one, and all others have been stirred. -/
theorem Fairly.announce (h : s.Fairly) (staffed : s.Staffed) (carries : s.Carries s')
    (grown : s.graph.listeners.length ≤ s'.graph.listeners.length)
    (rounds : s'.account.rounds = r :: s.account.rounds.map Round.stirred) (fair : s'.Fair r) :
    s'.Fairly := by
  constructor
  · rw [rounds]
    refine List.forall_mem_cons.2 ⟨fair, fun k hk => ?_⟩
    obtain ⟨k, mem, rfl⟩ := List.mem_map.1 hk
    exact (h.fair k mem).stirred.carried staffed carries grown (by simp [Round.stirred])
  · rw [rounds, List.tail_cons]
    intro k hk
    obtain ⟨k, -, rfl⟩ := List.mem_map.1 hk
    rfl

/-- The innermost announcement ends; the one around it has been stirred by the change that it
announced. -/
theorem Fairly.settle (h : s.Fairly) (staffed : s.Staffed) (carries : s.Carries s')
    (grown : s.graph.listeners.length ≤ s'.graph.listeners.length) {rest : List (Round V)}
    (before : s.account.rounds = r :: rest) (rounds : s'.account.rounds = rest) : s'.Fairly := by
  have stirred := h.stirred
  rw [before, List.tail_cons] at stirred
  constructor
  · rw [rounds]
    intro k hk
    have outer := h.fair k (before ▸ List.mem_cons_of_mem _ hk)
    exact outer.carried staffed carries grown fun calm =>
      absurd ((stirred k hk).symm.trans calm) Bool.false_ne_true
  · rw [rounds]
    exact fun k hk => stirred k (List.mem_of_mem_tail hk)

/-- Whatever keeps an effect from running, the listener that was called was not current. -/
theorem Staffed.not_current (h : s.Staffed) {y : Listener B} {epoch : Nat} {x : Effect B}
    (hy : s.graph.listeners[l]? = some y) (target : y.reaction = .rerun e epoch)
    (hx : s.graph.effects[e]? = some x)
    (off : x.owned = false ∨ x.epoch ≠ epoch ∨ x.disposed = true ∨ x.running = true)
    (d : EffectId) : ¬ s.graph.Current l d := by
  intro current
  obtain ⟨z, hz, undisposed, y', hy', hr⟩ := id current
  obtain rfl := Option.some.inj (hy.symm.trans hy')
  cases target.symm.trans hr
  obtain rfl := Option.some.inj (hx.symm.trans hz)
  have tallied := h.tallied hx
  rcases off with unowned | stale | disposed | running
  · exact Bool.false_ne_true (unowned.symm.trans (tallied.owned undisposed))
  · exact stale rfl
  · exact Bool.false_ne_true (undisposed.symm.trans disposed)
  · exact h.current_rests current (tallied.running.1 running)

theorem Move.fairly (move : Move same keeps s s') (scopes : s.Scoped) (staffed : s.Staffed)
    (h : s.Fairly) : s'.Fairly := by
  have advances := move.advances scopes staffed
  have carries := advances.carries
  have grown := move.grows
  /- Moves that leave the announcements as they are, and start no run of an old effect. -/
  have still (rounds : s'.account.rounds = s.account.rounds)
      (rests : ∀ e < s.graph.effects.length, e ∈ s'.account.running →
          e ∈ s.account.running) : s'.Fairly :=
    h.still staffed carries grown rounds rests
  have top_fair {r : Round V} {layers : List (Layer V)}
      (top : s.account.layers = .round r :: layers) :
      s.account.rounds = r :: layers.filterMap Layer.round? ∧ s.Fair r := by
    have rounds := rounds_of_round top
    exact ⟨rounds, h.fair r (rounds ▸ List.mem_cons_self)⟩
  cases move with
  | aside => exact still (by rw [account_still]) (by rw [account_still]; exact fun _ _ => id)
  | create v => exact still (by rw [account_still]) (by rw [account_still]; exact fun _ _ => id)
  | @read c =>
    refine still ?_ ?_ <;> rw [account_mark]
    · exact Layer.filterMap_round_credit c s.account.layers
    · exact fun e _ he =>
        (congrArg (e ∈ ·) (Layer.filterMap_running_credit c s.account.layers)).mp he
  | @change c v z ls _ hz differs changed =>
    obtain ⟨rfl, log, alike⟩ := of_change hz differs changed
    have idle :=
      (Graph.Idle.withCell s.graph (List.getElem?_eq_some_iff.1 hz).1 v (z.version + 1)).trans
        (.alike alike)
    have rounds : s'.account.rounds = s.account.announcement c v (s.graph.liveSlots c) ::
        s.account.rounds.map Round.stirred := by
      rw [account_change log]
      exact congrArg (List.cons _) (Layer.filterMap_round_stir s.account.layers)
    exact h.announce staffed carries grown rounds (Fair.begin staffed carries idle.leaves grown)
  | hear top pending hy own =>
    obtain ⟨rounds, fair⟩ := top_fair top
    refine h.next staffed carries grown rounds (by rw [account_hear top pending]; rfl) ?_
    refine (fair.skip pending ?_).carried staffed carries grown ?_
    · rintro e ⟨x, -, -, y, hy', hr⟩
      obtain rfl := Option.some.inj (hy.symm.trans hy')
      cases own.symm.trans hr
    · rw [account_hear top pending, running_of_none top rfl]
      exact fun _ _ _ => id
  | skip top pending hy target hx off =>
    obtain ⟨rounds, fair⟩ := top_fair top
    refine h.next staffed carries grown rounds (by rw [account_skip top pending]; rfl) ?_
    refine (fair.skip pending (staffed.not_current hy target hx off)).carried
      staffed carries grown ?_
    rw [account_skip top pending, running_of_none top rfl]
    exact fun _ _ _ => id
  | rerun top pending hy target hx undisposed resting =>
    obtain ⟨rounds, fair⟩ := top_fair top
    refine h.next staffed carries grown rounds (by rw [account_rerun top pending]; rfl) ?_
    exact fair.rerun staffed advances grown pending ⟨_, hx, undisposed, _, hy,
      target⟩ (running_rerun top pending)
  | leave top =>
    refine still ?_ ?_ <;> rw [account_leave top]
    · rw [rounds_of_none top rfl]
      rfl
    · rw [running_of_none top rfl]
      exact fun _ _ => id
  | settle top =>
    exact h.settle staffed carries grown (top_fair top).1 (by rw [account_settle top]; rfl)
  | suspend =>
    exact still (by rw [account_suspend]; rfl) (by rw [account_suspend]; exact fun _ _ => id)
  | resume top =>
    refine still ?_ ?_ <;> rw [account_resume top]
    · rw [rounds_of_none top rfl]
      rfl
    · rw [running_of_none top rfl]
      exact fun _ _ => id
  | subscribe c body =>
    refine still ?_ ?_ <;> rw [account_subscribe] <;> split
    · rfl
    · rfl
    · exact fun _ _ => id
    · exact fun _ _ => id
  | release plain =>
    refine still ?_ ?_ <;> rw [account_mark]
    · rfl
    · exact fun _ _ => id
  | spawn body =>
    refine still ?_ ?_ <;> rw [account_mark]
    · rfl
    · exact fun e he hr => (List.mem_cons.1 hr).resolve_left (Nat.ne_of_lt he)
  | finish top =>
    refine still ?_ ?_ <;> rw [account_finish top]
    · rw [rounds_of_none top rfl]
      rfl
    · rw [Account.running, Account.running, top]
      exact fun _ _ => List.mem_cons_of_mem _
  | dispose e =>
    exact still (by rw [account_dispose]; rfl) (by rw [account_dispose]; exact fun _ _ => id)
  | drop e => exact still (by rw [account_drop]; rfl) (by rw [account_drop]; exact fun _ _ => id)

end Logged
end StoryPreview.Reactive
