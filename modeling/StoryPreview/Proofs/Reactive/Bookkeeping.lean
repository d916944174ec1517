import StoryPreview.Proofs.Reactive.Attending
import StoryPreview.Proofs.Reactive.Moves
/-!
What a log tells about effects. At any moment of any run the account of the log agrees with the
state: about the scopes of what is under way, and about each effect, whether it runs, whether it has
been given up, and what it is fastened to.
-/
namespace StoryPreview.Reactive
variable {B V W : Type} {same : V → V → Bool} {keeps : W → ListenerId → Prop}

/-! ### Scopes -/

def Scope.credit (c : CellId) : List Scope → List Scope
  | .tracked cells :: scopes => .tracked (if c ∈ cells then cells else cells ++ [c]) :: scopes
  | scopes => scopes

theorem Graph.track_scopes (g : Graph B V W) (c : CellId) :
    (g.track c).scopes = Scope.credit c g.scopes := by
  unfold Graph.track
  split
  · rename_i cells scopes hs
    rw [hs, Scope.credit]
    split
    · exact hs
    · rfl
  · rename_i hs
    cases h : g.scopes with
    | nil => rfl
    | cons scope scopes =>
      cases scope with
      | tracked cells => exact absurd h (hs cells scopes)
      | untracked => rfl

namespace Layer

def scope? : Layer V → Option Scope
  | .run _ reads => some (.tracked reads)
  | .untracked => some .untracked
  | _ => none

theorem filterMap_scope_credit (c : CellId) (layers : List (Layer V)) :
    (credit c layers).filterMap scope? = Scope.credit c (layers.filterMap scope?) := by
  induction layers with
  | nil => rfl
  | cons layer layers ih => cases layer <;> simp [credit, scope?, Scope.credit,
    List.filterMap_cons, ih]

theorem filterMap_scope_stir (layers : List (Layer V)) :
    (layers.map stir).filterMap scope? = layers.filterMap scope? :=
  filterMap_stir (fun layer => by cases layer <;> rfl) layers

end Layer

namespace Logged
variable {s s' : Logged B V W}

structure Scoped (s : Logged B V W) : Prop where
  scopes : s.graph.scopes = s.account.layers.filterMap Layer.scope?
  nodup : ∀ {cells : List CellId}, Scope.tracked cells ∈ s.graph.scopes → cells.Nodup
  known : ∀ {cells : List CellId} {c : CellId}, Scope.tracked cells ∈ s.graph.scopes → c ∈ cells →
    c < s.graph.cells.length

namespace Scoped

theorem next (h : s.Scoped) (scopes : s'.graph.scopes = s'.account.layers.filterMap Layer.scope?)
    (old : ∀ cells, Scope.tracked cells ∈ s'.graph.scopes → Scope.tracked cells ∈ s.graph.scopes ∨
      cells = [])
    (cells : s.graph.cells.length ≤ s'.graph.cells.length) : s'.Scoped where
  scopes := scopes
  nodup := by
    intro cs hcs
    rcases old cs hcs with hcs | rfl
    · exact h.nodup hcs
    · exact List.nodup_nil
  known := by
    intro cs c hcs hc
    rcases old cs hcs with hcs | rfl
    · exact Nat.lt_of_lt_of_le (h.known hcs hc) cells
    · cases hc

theorem still (h : s.Scoped) (scopes : s'.graph.scopes = s.graph.scopes)
    (layers : s'.account.layers.filterMap Layer.scope? = s.account.layers.filterMap Layer.scope?)
    (cells : s.graph.cells.length ≤ s'.graph.cells.length) : s'.Scoped :=
  h.next (by rw [scopes, layers, h.scopes]) (fun _ hcs => .inl (scopes ▸ hcs)) cells

theorem read (h : s.Scoped) {c : CellId} (hc : c < s.graph.cells.length) :
    (s.step [.read c] (·.track c)).Scoped := by
  have scopes : (s.step [.read c] (·.track c)).graph.scopes = Scope.credit c s.graph.scopes :=
    s.graph.track_scopes c
  have credited {cells : List CellId} (hcs : Scope.tracked cells ∈ Scope.credit c s.graph.scopes) :
      ∃ old, Scope.tracked old ∈ s.graph.scopes ∧ (cells = old ∨ c ∉ old ∧ cells = old ++ [c]) := by
    cases hs : s.graph.scopes with
    | nil =>
      rw [hs] at hcs
      cases hcs
    | cons scope rest =>
      rw [hs] at hcs
      cases scope with
      | untracked => exact ⟨cells, hcs, .inl rfl⟩
      | tracked old =>
        rcases List.mem_cons.1 hcs with top | deeper
        · refine ⟨old, List.mem_cons_self, ?_⟩
          obtain rfl := Scope.tracked.inj top
          split
          · exact .inl rfl
          · exact .inr ⟨‹_›, rfl⟩
        · exact ⟨cells, List.mem_cons_of_mem _ deeper, .inl rfl⟩
  constructor
  case scopes => rw [scopes, account_mark, Account.after, Layer.filterMap_scope_credit, h.scopes]
  case nodup =>
    intro cells hcs
    obtain ⟨old, ho, rfl | ⟨new, rfl⟩⟩ := credited (scopes ▸ hcs)
    · exact h.nodup ho
    · exact List.nodup_append.2 ⟨h.nodup ho, by simp,
        fun d hd k hk => ne_of_mem_of_not_mem hd (List.mem_singleton.1 hk ▸ new)⟩
  case known =>
    intro cells d hcs hd
    refine Nat.lt_of_lt_of_eq ?_ (congrArg List.length (s.graph.track_cells c)).symm
    obtain ⟨old, ho, rfl | ⟨-, rfl⟩⟩ := credited (scopes ▸ hcs)
    · exact h.known ho hd
    · rcases List.mem_append.1 hd with hd | hd
      · exact h.known ho hd
      · exact List.mem_singleton.1 hd ▸ hc

theorem reading (h : s.Scoped) {e : EffectId} {reads : List CellId} {layers : List (Layer V)}
    (top : s.account.layers = .run e reads :: layers) : s.graph.reads = reads := by
  rw [Graph.reads, h.scopes, top]
  rfl

end Scoped

theorem Move.scoped (move : Move same keeps s s') (h : s.Scoped) : s'.Scoped := by
  cases move with
  | aside parts scopes =>
    exact h.still scopes (by rw [account_still])
      (Nat.le_of_eq (congrArg List.length parts.cells).symm)
  | create v => exact h.still rfl (by rw [account_still]) (by simp [step, Graph.addCell])
  | read hz => exact h.read (List.getElem?_eq_some_iff.1 hz).1
  | change hz differs changed =>
    obtain ⟨-, log, alike⟩ := of_change hz differs changed
    refine h.still alike.scopes ?_ (by simp [alike.cells, Graph.withCell])
    rw [account_change log]
    exact Layer.filterMap_scope_stir s.account.layers
  | hear top pending =>
    exact h.still rfl (by rw [account_hear top pending, top]; rfl) (Nat.le_refl _)
  | skip top pending hy target hx idle parts scopes =>
    exact h.still scopes (by rw [account_skip top pending, top]; rfl)
      (Nat.le_of_eq (congrArg List.length parts.cells).symm)
  | rerun top pending =>
    refine h.next ?_ (fun cells hcs => ?_) ?_
    · rw [account_rerun top pending]
      refine Graph.start_scopes.trans (congrArg (Scope.tracked [] :: ·) ?_)
      rw [Graph.record, h.scopes, top]
      rfl
    · rcases List.mem_cons.1 (Graph.start_scopes ▸ hcs) with new | old
      · exact .inr (Scope.tracked.inj new)
      · exact .inl old
    · simp [step, Graph.record]
  | leave top => exact h.still rfl (by rw [account_leave top, top]; rfl) (Nat.le_refl _)
  | @settle r _ top =>
    have alike := Graph.Alike.foldl Graph.Alike.unpin r.captured s.graph
    exact h.still alike.scopes (by rw [account_settle top, top]; rfl)
      (Nat.le_of_eq (congrArg List.length alike.cells).symm)
  | suspend =>
    refine h.next ?_ (fun cells hcs => ?_) (Nat.le_refl _)
    · rw [account_suspend]
      exact congrArg (Scope.untracked :: ·) h.scopes
    · exact .inl ((List.mem_cons.1 hcs).resolve_left (by simp))
  | resume top =>
    refine h.next ?_ (fun cells hcs => .inl (List.mem_of_mem_tail hcs)) (Nat.le_refl _)
    rw [account_resume top]
    change s.graph.scopes.tail = _
    rw [h.scopes, top]
    rfl
  | subscribe c body =>
    refine h.still rfl ?_ (Nat.le_of_eq (Graph.subscribe_cells_length c _).symm)
    rw [account_subscribe]
    split <;> rfl
  | release plain => exact h.still rfl (by rw [account_mark]; rfl) (Nat.le_refl _)
  | spawn body =>
    refine h.next ?_ (fun cells hcs => ?_) ?_
    · rw [account_mark]
      exact Graph.start_scopes.trans (congrArg (Scope.tracked [] :: ·) h.scopes)
    · rcases List.mem_cons.1 (Graph.start_scopes ▸ hcs) with new | old
      · exact .inr (Scope.tracked.inj new)
      · exact .inl old
    · simp [step, Graph.addEffect]
  | @finish e _ _ top =>
    have scopes : (s.graph.finish e).scopes = s.graph.scopes.tail := s.graph.finish_pops e
    refine h.next ?_ (fun cells hcs => .inl ?_) (Nat.le_of_eq (s.graph.finish_cells_length e).symm)
    · rw [account_finish top]
      refine scopes.trans ?_
      rw [h.scopes, top]
      rfl
    · exact List.mem_of_mem_tail (scopes ▸ hcs)
  | dispose e =>
    exact h.still Graph.dispose_scopes (by rw [account_dispose])
      (Nat.le_of_eq (congrArg List.length Graph.dispose_cells).symm)
  | drop e =>
    exact h.still Graph.drop_scopes (by rw [account_drop])
      (Nat.le_of_eq (congrArg List.length Graph.drop_cells).symm)

/-! ### Effects -/

structure Tallied (a : Account V) (e : EffectId) (x : Effect B) : Prop where
  running : x.running = true ↔ e ∈ a.running
  gone : x.disposed = true ↔ e ∈ a.gone
  owned : x.disposed = false → x.owned = true
  loss : x.disposed = true → x.dependencies = 0
  dependencies : x.disposed = false → x.running = false → x.dependencies = (a.latest e).length

structure Staffed (s : Logged B V W) : Prop where
  ordered : s.graph.Ordered
  fastened : s.graph.Fastened s.account.latest
  count : s.account.effects = s.graph.effects.length
  tallied : ∀ {e : EffectId} {x : Effect B}, s.graph.effects[e]? = some x → Tallied s.account e x
  known : ∀ {e : EffectId}, e ∈ s.account.running ∨ e ∈ s.account.gone → e < s.graph.effects.length
  alone : s.account.running.Nodup

structure Quiet (a a' : Account V) : Prop where
  effects : a'.effects = a.effects
  latest : a'.latest = a.latest
  gone : a'.gone = a.gone
  running : a'.running = a.running

/-- Listeners that make an effect run again go on to do so until it runs or is given up, and no old
ones are added. -/
structure Carries (s s' : Logged B V W) : Prop where
  back : ∀ {l : ListenerId} {e : EffectId}, l < s.graph.listeners.length → s'.graph.Current l e →
    s.graph.Current l e ∧ s'.account.latest e = s.account.latest e
  forth : ∀ {l : ListenerId} {e : EffectId}, s.graph.Current l e →
    e ∈ s'.account.gone ∨ e ∈ s'.account.running ∨ s'.graph.Current l e
  gone : ∀ {e : EffectId}, e ∈ s.account.gone → e ∈ s'.account.gone

structure Advances (s s' : Logged B V W) : Prop where
  staffed : s'.Staffed
  carries : s.Carries s'

theorem Staffed.quiet (h : s.Staffed) (ordered : s'.graph.Ordered)
    (leaves : s.graph.Leaves s'.graph) (quiet : Quiet s.account s'.account) : s.Advances s' := by
  refine ⟨?_, fun _ hc => ⟨leaves.current.1 hc, by rw [quiet.latest]⟩,
    fun hc => .inr (.inr (leaves.current.2 hc)), fun he => by rwa [quiet.gone]⟩
  constructor
  case ordered => exact ordered
  case fastened => exact quiet.latest ▸ h.fastened.leaves leaves
  case count => rw [quiet.effects, leaves.effects, h.count]
  case tallied =>
    intro e x hx
    obtain ⟨running, gone, owned, loss, dependencies⟩ := h.tallied (leaves.effects ▸ hx)
    exact ⟨by rwa [quiet.running], by rwa [quiet.gone], owned, loss, by rwa [quiet.latest]⟩
  case known =>
    intro e he
    rw [quiet.running, quiet.gone] at he
    rw [leaves.effects]
    exact h.known he
  case alone => exact quiet.running ▸ h.alone

theorem Staffed.idle (h : s.Staffed) (idle : s.graph.Idle s'.graph)
    (quiet : Quiet s.account s'.account) : s.Advances s' :=
  h.quiet (h.ordered.idle idle) idle.leaves quiet

structure Turn (s s' : Logged B V W) (e : EffectId) (x' : Effect B) : Prop where
  self : s'.graph.effects[e]? = some x'
  other : ∀ {d : EffectId}, d ≠ e → s'.graph.effects[d]? = s.graph.effects[d]?
  /-- The old listeners of the effect will not make it run again. -/
  stale : ∀ {l : ListenerId} {epoch : Nat}, s.graph.Targets l e epoch → x'.disposed = true ∨
    epoch < x'.epoch
  targets : ∀ {l : ListenerId} {d : EffectId} {epoch : Nat}, l < s.graph.listeners.length →
    s'.graph.Targets l d epoch → s.graph.Targets l d epoch
  tallied : Tallied s'.account e x'
  latest : ∀ {d : EffectId}, d ≠ e → s'.account.latest d = s.account.latest d
  running : ∀ {d : EffectId}, d ≠ e → (d ∈ s'.account.running ↔ d ∈ s.account.running)
  gone : ∀ {d : EffectId}, d ≠ e → (d ∈ s'.account.gone ↔ d ∈ s.account.gone)
  gone_self : e ∈ s.account.gone → e ∈ s'.account.gone
  reason : e ∈ s'.account.gone ∨ e ∈ s'.account.running ∨ e ∈ s.account.running

theorem Staffed.current_rests (h : s.Staffed) {l : ListenerId} {e : EffectId}
    (hc : s.graph.Current l e) : e ∉ s.account.running := by
  obtain ⟨x, hx, -, ht⟩ := hc
  obtain ⟨z, hz, -, hrun⟩ := h.fastened.epoch ht
  obtain rfl := Option.some.inj (hx.symm.trans hz)
  exact fun he => Nat.lt_irrefl _ (hrun ((h.tallied hx).running.2 he))

theorem Staffed.carries (h : s.Staffed) {e : EffectId} {x' : Effect B} (turn : s.Turn s' e x')
    (lasting : s.graph.Lasting s'.graph) : s.Carries s' where
  back := by
    rintro l d hl ⟨z, hz, hd, ht⟩
    have old := turn.targets hl ht
    by_cases hde : d = e
    · subst hde
      obtain rfl := Option.some.inj (turn.self.symm.trans hz)
      rcases turn.stale old with disposed | stale
      · cases hd.symm.trans disposed
      · exact absurd stale (Nat.lt_irrefl _)
    · exact ⟨⟨z, (turn.other hde).symm.trans hz, hd, old⟩, turn.latest hde⟩
  forth := by
    intro l d hc
    by_cases hde : d = e
    · subst hde
      rcases turn.reason with gone | running | before
      · exact .inl gone
      · exact .inr (.inl running)
      · exact absurd before (h.current_rests hc)
    · obtain ⟨z, hz, hd, ht⟩ := hc
      exact .inr (.inr ⟨z, (turn.other hde).trans hz, hd, ht.lasting lasting⟩)
  gone := by
    intro d hd
    by_cases hde : d = e
    · subst hde
      exact turn.gone_self hd
    · exact (turn.gone hde).2 hd

theorem Staffed.turn (h : s.Staffed) {e : EffectId} {x' : Effect B} (turn : s.Turn s' e x')
    (lasting : s.graph.Lasting s'.graph) (ordered : s'.graph.Ordered)
    (fastened : s'.graph.Fastened s'.account.latest)
    (count : s'.account.effects = s'.graph.effects.length)
    (grown : s.graph.effects.length ≤ s'.graph.effects.length) (alone : s'.account.running.Nodup) :
    s.Advances s' := by
  refine ⟨?_, h.carries turn lasting⟩
  constructor
  case ordered => exact ordered
  case fastened => exact fastened
  case count => exact count
  case tallied =>
    intro d x hx
    by_cases hd : d = e
    · subst hd
      obtain rfl := Option.some.inj (turn.self.symm.trans hx)
      exact turn.tallied
    · obtain ⟨running, gone, owned, loss, dependencies⟩ := h.tallied ((turn.other hd).symm.trans hx)
      exact ⟨running.trans (turn.running hd).symm, gone.trans (turn.gone hd).symm, owned, loss,
        turn.latest hd ▸ dependencies⟩
  case known =>
    intro d hd
    by_cases hde : d = e
    · exact hde ▸ (List.getElem?_eq_some_iff.1 turn.self).1
    · exact Nat.lt_of_lt_of_le (h.known (hd.imp (turn.running hde).1 (turn.gone hde).1)) grown
  case alone => exact alone

/-! What happens to an effect when a run of it starts or ends, and when it is given up. -/

section Turns
variable {e : EffectId} {x x' : Effect B} {r : Round V} {layers : List (Layer V)} {l : ListenerId}
    {ls : List ListenerId}

theorem Staffed.turn_rerun (h : s.Staffed) (top : s.account.layers = .round r :: layers)
    (pending : r.pending = l :: ls) (hx : s.graph.effects[e]? = some x)
    (undisposed : x.disposed = false) :
    s.Turn (s.step [.called l r.value, .reran e] fun g =>
      (g.record (.called l r.value)).start e x) e
      { x with running := true, epoch := x.epoch + 1, subscriptions := [] } := by
  have hlt := (List.getElem?_eq_some_iff.1 hx).1
  have effects : ((s.graph.record (.called l r.value)).start e x).effects = _ := Graph.start_effects
  have running := running_rerun (s := s) (f := fun g => (g.record (.called l r.value)).start e x)
    (v := r.value) (e := e) top pending
  constructor
  case self => exact (congrArg (·[e]?) effects).trans (List.getElem?_set_self hlt)
  case other => exact fun hd => (congrArg (·[_]?) effects).trans (List.getElem?_set_ne hd.symm)
  case stale =>
    intro k epoch ht
    obtain ⟨z, hz, hle, -⟩ := h.fastened.epoch ht
    obtain rfl := Option.some.inj (hx.symm.trans hz)
    exact .inr (Nat.lt_succ_of_le hle)
  case targets =>
    intro k d epoch _ ht
    exact (Graph.targets_releaseAll (g := s.graph.record (.called l r.value)) x.subscriptions).1
      ((Graph.targets_congr rfl).1 ht)
  case tallied =>
    obtain ⟨-, gone, owned, -, -⟩ := h.tallied hx
    refine ⟨by simp [running], ?_, owned,
      fun hd => absurd (undisposed.symm.trans hd) Bool.false_ne_true, by simp⟩
    rw [account_rerun top pending]
    exact gone
  case latest =>
    intro d _
    rw [account_rerun top pending]
  case running =>
    intro d hd
    rw [running, List.mem_cons, or_iff_right hd]
  case gone =>
    intro d _
    rw [account_rerun top pending]
  case gone_self =>
    rw [account_rerun top pending]
    exact id
  case reason =>
    rw [running]
    exact .inr (.inl List.mem_cons_self)

theorem Staffed.turn_spawn (h : s.Staffed) (body : B) :
    s.Turn (s.step [.spawned s.graph.effects.length] fun g =>
      (g.addEffect body).2.start g.effects.length { body := body })
      s.graph.effects.length { body := body, running := true, epoch := 1 } := by
  have effects :
      ((s.graph.addEffect body).2.start s.graph.effects.length { body := body }).effects = _ :=
    Graph.start_effects
  have unknown {d : EffectId} (hd : d = s.graph.effects.length) : d ∉ s.account.running ∧
      d ∉ s.account.gone :=
    ⟨fun hr => Nat.lt_irrefl _ (hd ▸ h.known (.inl hr)),
      fun hg => Nat.lt_irrefl _ (hd ▸ h.known (.inr hg))⟩
  have running : (s.step [.spawned s.graph.effects.length] fun g =>
      (g.addEffect body).2.start g.effects.length { body := body }).account.running =
        s.graph.effects.length :: s.account.running := by
    rw [account_mark]
    rfl
  have gone : (s.step [.spawned s.graph.effects.length] fun g =>
      (g.addEffect body).2.start g.effects.length { body := body }).account.gone =
          s.account.gone := by
    rw [account_mark]
    rfl
  constructor
  case self =>
    refine (congrArg (·[_]?) effects).trans (List.getElem?_set_self ?_)
    simp [Graph.addEffect]
  case other =>
    intro d hd
    refine (congrArg (·[d]?) effects).trans ((List.getElem?_set_ne hd.symm).trans ?_)
    by_cases hlt : d < s.graph.effects.length
    · exact List.getElem?_append_left hlt
    · rw [List.getElem?_eq_none (Nat.le_of_not_lt hlt), List.getElem?_eq_none]
      simp only [Graph.addEffect, List.length_append, List.length_singleton]
      exact Nat.lt_of_le_of_ne (Nat.le_of_not_lt hlt) hd.symm
  case stale =>
    intro k epoch ht
    obtain ⟨z, hz, -⟩ := h.fastened.epoch ht
    exact absurd (List.getElem?_eq_some_iff.1 hz).1 (Nat.lt_irrefl _)
  case targets => exact fun _ ht => ht
  case tallied =>
    refine ⟨by simp [running], ?_, fun _ => rfl, by simp, by simp⟩
    rw [gone]
    exact iff_of_false Bool.false_ne_true (unknown rfl).2
  case latest =>
    intro d _
    rw [account_mark]
    rfl
  case running =>
    intro d hd
    rw [running, List.mem_cons, or_iff_right hd]
  case gone =>
    intro d _
    rw [gone]
  case gone_self =>
    rw [gone]
    exact id
  case reason =>
    rw [running]
    exact .inr (.inl List.mem_cons_self)

theorem Staffed.turn_retire (h : s.Staffed) (hx : s.graph.effects[e]? = some x)
    (retires : Graph.Retires e x x' s.graph s'.graph)
    (running : s'.account.running = s.account.running)
    (latest : s'.account.latest = s.account.latest) (gone : s'.account.gone = e :: s.account.gone) :
    s.Turn s' e x' := by
  have hlt := (List.getElem?_eq_some_iff.1 hx).1
  constructor
  case self => rw [retires.effects, List.getElem?_set_self hlt]
  case other =>
    intro d hd
    rw [retires.effects, List.getElem?_set_ne hd.symm]
  case stale => exact fun _ => .inl retires.disposed
  case targets =>
    exact fun _ ht => (Graph.targets_releaseAll x.subscriptions).1
      ((Graph.targets_congr retires.listeners).1 ht)
  case tallied =>
    have other {P : Prop} (hd : _ = false) : P :=
      absurd (hd.symm.trans retires.disposed) Bool.false_ne_true
    refine ⟨?_, by simp [retires.disposed, gone], other, fun _ => retires.dependencies, other⟩
    rw [retires.running, running]
    exact (h.tallied hx).running
  case latest => exact fun _ => by rw [latest]
  case running => exact fun _ => by rw [running]
  case gone =>
    intro d hd
    rw [gone, List.mem_cons, or_iff_right hd]
  case gone_self => exact fun he => gone ▸ List.mem_cons_of_mem _ he
  case reason => exact .inl (gone ▸ List.mem_cons_self)

/-- An effect is there as long as a run of it is under way. -/
theorem Staffed.exists_running (h : s.Staffed) {reads : List CellId}
    (top : s.account.layers = .run e reads :: layers) :
    ∃ x, s.graph.effects[e]? = some x ∧ x.running = true := by
  have running : e ∈ s.account.running := by
    rw [Account.running, top]
    exact List.mem_cons_self
  have hx := List.getElem?_eq_getElem (h.known (.inl running))
  exact ⟨_, hx, (h.tallied hx).running.2 running⟩

/-- A run ends: the record of its effect differs from that before in what the account knows. -/
theorem Staffed.turn_ended (h : s.Staffed) {reads : List CellId}
    (top : s.account.layers = .run e reads :: layers) (hx : s.graph.effects[e]? = some x)
    (runs : x.running = true) (effects : (s.graph.finish e).effects = s.graph.effects.set e x')
    (resting : x'.running = false) (disposed : x'.disposed = x.disposed)
    (owned : x'.owned = x.owned) (epoch : x'.epoch = x.epoch)
    (loss : x.disposed = true → x'.dependencies = x.dependencies)
    (dependencies : x.disposed = false → x'.dependencies = reads.length)
    (targets : ∀ {l : ListenerId} {d k : Nat}, l < s.graph.listeners.length →
      (s.graph.finish e).Targets l d k → s.graph.Targets l d k) :
      s.Turn (s.step [.ended e] (·.finish e)) e x' := by
  have hlt := (List.getElem?_eq_some_iff.1 hx).1
  have tallied := h.tallied hx
  have running : s.account.running = e :: layers.filterMap Layer.running? := by
    rw [Account.running, top]
    rfl
  have out : e ∉ layers.filterMap Layer.running? := (List.nodup_cons.1 (running ▸ h.alone)).1
  have account : (s.step [.ended e] (·.finish e)).account = _ := account_finish top
  have left : (s.step [.ended e] (·.finish e)).account.running =
      layers.filterMap Layer.running? := by
    rw [account]
    rfl
  constructor
  case self => exact (congrArg (·[e]?) effects).trans (List.getElem?_set_self hlt)
  case other => exact fun hd => (congrArg (·[_]?) effects).trans (List.getElem?_set_ne hd.symm)
  case stale =>
    intro k n ht
    obtain ⟨w, hw, -, hrun⟩ := h.fastened.epoch ht
    obtain rfl := Option.some.inj (hx.symm.trans hw)
    exact .inr (epoch ▸ hrun runs)
  case targets => exact targets
  case tallied =>
    refine ⟨by simp [resting, left, out], ?_, ?_, ?_, ?_⟩
    · rw [disposed, account]
      exact tallied.gone
    · rw [disposed, owned]
      exact tallied.owned
    · intro hd
      rw [loss (disposed ▸ hd)]
      exact tallied.loss (disposed ▸ hd)
    · intro hd _
      rw [dependencies (disposed ▸ hd), account]
      simp
  case latest =>
    intro d hd
    rw [account]
    exact if_neg hd
  case running =>
    intro d hd
    rw [left, running, List.mem_cons, or_iff_right hd]
  case gone =>
    intro d _
    rw [account]
  case gone_self =>
    rw [account]
    exact id
  case reason =>
    rw [running]
    exact .inr (.inr List.mem_cons_self)

theorem Staffed.turn_finish (h : s.Staffed) (scopes : s.Scoped) {reads : List CellId}
    (top : s.account.layers = .run e reads :: layers) :
    ∃ x', s.Turn (s.step [.ended e] (·.finish e)) e x' := by
  obtain ⟨x, hx, runs⟩ := h.exists_running top
  by_cases disposed : x.disposed = true
  · have unfolded := Graph.finish_gone hx disposed
    refine ⟨_, h.turn_ended top hx runs (congrArg Graph.effects unfolded) rfl rfl
      rfl rfl (fun _ => rfl) (fun hd => absurd (hd.symm.trans disposed) Bool.false_ne_true)
      fun _ ht => (Graph.targets_congr (congrArg Graph.listeners unfolded)).1 ht⟩
  · replace disposed := Bool.eq_false_iff.2 disposed
    have unfolded := Graph.finish_eq hx disposed
    refine ⟨_, h.turn_ended top hx runs (congrArg Graph.effects unfolded) rfl rfl rfl rfl
      (fun hd => absurd (disposed.symm.trans hd) Bool.false_ne_true) ?_ ?_⟩
    · intro _
      simp [Graph.ended, Graph.attach_ids, scopes.reading top]
    · -- What the run attaches is new, so the old listeners are for what they were for.
      intro l d k hl ht
      have attached : (s.graph.pop.attach e x.epoch s.graph.reads).2.Targets l d k :=
        (Graph.targets_congr (congrArg Graph.listeners unfolded)).1 ht
      exact (Graph.Targets.of_attach attached).resolve_right fun new => Nat.not_le_of_lt hl new.1

theorem Staffed.retire (h : s.Staffed) {f : Graph B V W → Graph B V W} {marks : List (Mark V)}
    (lasting : s.graph.Lasting (f s.graph)) (givesUp : s.graph.GivesUp e (f s.graph))
    (account : (s.step marks f).account =
      { s.account with gone := if e < s.account.effects then e :: s.account.gone
        else s.account.gone }) :
    s.Advances (s.step marks f) := by
  cases hx : s.graph.effects[e]? with
  | none =>
    have out : ¬ e < s.account.effects := by
      rw [h.count]
      exact Nat.not_lt_of_le (List.getElem?_eq_none_iff.1 hx)
    have same : s.graph.Idle (s.step marks f).graph := by
      rw [show (s.step marks f).graph = s.graph from givesUp.unborn hx]
      exact .of_eq rfl rfl rfl
    refine h.idle same ?_
    rw [account, if_neg out]
    exact ⟨rfl, rfl, rfl, rfl⟩
  | some x =>
    have hlt := (List.getElem?_eq_some_iff.1 hx).1
    obtain ⟨x', retires⟩ := givesUp.retires hx fun disposed =>
      ⟨h.fastened.loose hx (.inl disposed), (h.tallied hx).loss disposed⟩
    rw [if_pos (h.count ▸ hlt)] at account
    have length : (s.step marks f).graph.effects.length = s.graph.effects.length :=
      (congrArg List.length retires.effects).trans (List.length_set ..)
    refine h.turn (h.turn_retire hx retires ?_ ?_ ?_) lasting
      (h.ordered.releases _ retires.cells retires.listeners) ?_ ?_
      (Nat.le_of_eq length.symm) ?_ <;> rw [account]
    · rfl
    · exact h.fastened.retires hx retires
    · exact h.count.trans length.symm
    · exact h.alone

end Turns

theorem Move.advances (move : Move same keeps s s') (scopes : s.Scoped) (h : s.Staffed) :
    s.Advances s' := by
  have lasting : s.graph.Lasting s'.graph := move.lasting
  -- Most moves leave effects alone (`idle`, `quiet`); the rest are turns of one effect.
  cases move with
  | aside parts =>
    refine h.idle (.of_eq parts.cells parts.listeners parts.effects) ?_
    rw [account_still]
    exact ⟨rfl, rfl, rfl, rfl⟩
  | create v =>
    refine h.idle (.addCell s.graph v) ?_
    rw [account_still]
    exact ⟨rfl, rfl, rfl, rfl⟩
  | @read c _ hz =>
    refine h.idle (.of_eq (s.graph.track_cells c) (s.graph.track_listeners c)
      (s.graph.track_effects c)) ?_
    rw [account_mark]
    exact ⟨rfl, rfl, rfl, Layer.filterMap_running_credit c s.account.layers⟩
  | change hz differs changed =>
    obtain ⟨rfl, log, alike⟩ := of_change hz differs changed
    refine h.idle ((Graph.Idle.withCell s.graph (List.getElem?_eq_some_iff.1 hz).1 _ _).trans
      (.alike alike)) ?_
    rw [account_change log]
    exact ⟨rfl, rfl, rfl, Layer.filterMap_running_stir s.account.layers⟩
  | hear top pending =>
    refine h.idle (.of_eq rfl rfl rfl) ?_
    rw [account_hear top pending]
    exact ⟨rfl, rfl, rfl, (running_of_none top rfl).symm⟩
  | skip top pending hy target hx off parts =>
    refine h.idle (.of_eq parts.cells parts.listeners parts.effects) ?_
    rw [account_skip top pending]
    exact ⟨rfl, rfl, rfl, (running_of_none top rfl).symm⟩
  | @rerun r _ l _ _ e x top pending hy target hx undisposed resting =>
    have recorded : s.graph.Idle (s.graph.record (.called l r.value)) := .of_eq rfl rfl rfl
    have length : ((s.graph.record (.called l r.value)).start e x).effects.length =
        s.graph.effects.length := by
      rw [Graph.start_effects]
      exact List.length_set ..
    refine h.turn (h.turn_rerun top pending hx undisposed) lasting
      ((h.ordered.idle recorded).start e x) ?_ ?_ (Nat.le_of_eq length.symm) ?_
    · rw [account_rerun top pending]
      exact (h.fastened.leaves recorded.leaves).start hx
    · rw [account_rerun top pending]
      exact h.count.trans length.symm
    · rw [running_rerun top pending]
      refine List.nodup_cons.2 ⟨fun he => ?_, h.alone⟩
      cases resting.symm.trans ((h.tallied hx).running.2 he)
  | leave top =>
    refine h.idle (.of_eq rfl rfl rfl) ?_
    rw [account_leave top]
    exact ⟨rfl, rfl, rfl, (running_of_none top rfl).symm⟩
  | @settle r _ top =>
    refine h.idle (.alike (Graph.Alike.foldl Graph.Alike.unpin r.captured s.graph)) ?_
    rw [account_settle top]
    exact ⟨rfl, rfl, rfl, (running_of_none top rfl).symm⟩
  | suspend =>
    refine h.idle (.of_eq rfl rfl rfl) ?_
    rw [account_suspend]
    exact ⟨rfl, rfl, rfl, rfl⟩
  | resume top =>
    refine h.idle (.of_eq rfl rfl rfl) ?_
    rw [account_resume top]
    exact ⟨rfl, rfl, rfl, (running_of_none top rfl).symm⟩
  | subscribe c body =>
    refine h.quiet (h.ordered.subscribe c _) (.subscribe h.ordered c body) ?_
    rw [account_subscribe]
    split <;> exact ⟨rfl, rfl, rfl, rfl⟩
  | release plain =>
    refine h.quiet (h.ordered.releases [_] rfl rfl) (.release plain) ?_
    rw [account_mark]
    exact ⟨rfl, rfl, rfl, rfl⟩
  | spawn body =>
    have length :
        ((s.graph.addEffect body).2.start s.graph.effects.length { body := body }).effects.length =
        s.graph.effects.length + 1 := by
      rw [Graph.start_effects]
      simp [Graph.addEffect]
    have added : (s.graph.addEffect body).2.Ordered :=
      h.ordered.thin (fun _ => .refl _) (Nat.le_refl _)
    refine h.turn (h.turn_spawn body) lasting (added.start _ _) ?_ ?_
      (by simp only [step, length]; exact Nat.le_succ _) ?_ <;> rw [account_mark]
    · exact (h.fastened.addEffect body).start (by simp [Graph.addEffect])
    · exact (congrArg (· + 1) h.count).trans length.symm
    · exact List.nodup_cons.2 ⟨fun hr => Nat.lt_irrefl _ (h.known (.inl hr)), h.alone⟩
  | @finish e reads layers top =>
    obtain ⟨x', turn⟩ := h.turn_finish scopes top
    obtain ⟨x, hx, running⟩ := h.exists_running top
    have reading := scopes.reading top
    have reads_mem : Scope.tracked s.graph.reads ∈ s.graph.scopes := by
      rw [reading, scopes.scopes, top]
      exact List.mem_cons_self
    have length := s.graph.finish_effects_length e
    refine h.turn turn lasting (h.ordered.finish e) ?_ ?_ (Nat.le_of_eq length.symm) ?_
      <;> rw [account_finish top]
    · rw [← reading]
      exact h.fastened.finish h.ordered hx running (scopes.nodup reads_mem) fun c hc =>
        scopes.known reads_mem hc
    · exact h.count.trans length.symm
    · have alone := h.alone
      rw [Account.running, top] at alone
      exact (List.nodup_cons.1 alone).2
  | dispose e =>
    exact h.retire lasting (s.graph.dispose_givesUp e) (account_dispose s e _)
  | drop e =>
    exact h.retire lasting (s.graph.drop_givesUp e) (account_drop s e _)

end Logged
end StoryPreview.Reactive
