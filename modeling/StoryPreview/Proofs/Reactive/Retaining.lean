import StoryPreview.Proofs.Reactive.Aging
import StoryPreview.Proofs.Reactive.Deliveries
/-!
The first listener of a cell. Each change of the cell captures it, until it has been given up and no
announcement that has captured it is under way. It is called once for each of these changes, in
their order, and no more.
-/
namespace StoryPreview.Reactive
variable {B V W : Type} {same : V → V → Bool} {keeps : W → ListenerId → Prop}
variable {log news before after : List (Mark V)} {mark : Mark V} {c d : CellId} {l : ListenerId}
    {v : V}

namespace Logged
variable {s s' : Logged B V W}

theorem assigned_of_change {ls : List ListenerId} (changed : s.change same c v = some (ls, s')) :
    s.graph.assign same c v = some (ls, s'.graph) := by
  obtain ⟨r, assigned, heq⟩ := Option.map_eq_some_iff.1 changed
  obtain ⟨rfl, rfl⟩ := Prod.mk.inj heq
  exact assigned

/-- A move that neither changes a cell nor calls a listener. -/
theorem ages_tick {g g' : Graph B V W} (tick : g.Tick (fun _ => True) g') : g.Ages g' := .tick tick

theorem Move.ages (move : Move same keeps s s') : s.graph.Ages s'.graph := by
  cases move with
  | aside parts => exact .of_parts parts
  | create v => exact .addCell s.graph v
  | read => exact ages_tick (.track s.graph _)
  | change hz differs changed => exact .assign (assigned_of_change changed)
  | hear => exact .of_parts ⟨rfl, rfl, rfl⟩
  | skip top pending hy target hx idle parts => exact .of_parts parts
  | @rerun r _ l _ _ e x =>
    have called : s.graph.Ages (s.graph.record (.called l r.value)) := .of_parts ⟨rfl, rfl, rfl⟩
    exact called.trans (ages_tick (.start e x))
  | leave => exact .refl s.graph
  | settle => exact .unpinAll _ s.graph
  | suspend => exact .of_parts ⟨rfl, rfl, rfl⟩
  | resume => exact .of_parts ⟨rfl, rfl, rfl⟩
  | subscribe c body => exact .subscribe s.graph c _
  | release => exact ages_tick (.release _)
  | spawn body => exact (ages_tick (.addEffect body)).trans (ages_tick (.start _ _))
  | finish => exact ages_tick (.finish _)
  | dispose e => exact ages_tick (.dispose e)
  | drop e => exact ages_tick (.drop e)

/-! ### Histories and logs -/

structure Recalls (s : Logged B V W) : Prop where
  told : ∀ l, s.graph.told l = heard l s.log
  taken : ∀ c, s.graph.taken c = given c s.log

namespace Recalls

theorem quiet (h : s.Recalls) {marks : List (Mark V)} (log : s'.log = s.log ++ marks)
    (unheard : ∀ l, heard l marks = []) (ungiven : ∀ c, given c marks = [])
    (heard : s'.graph.taken = s.graph.taken ∧ s'.graph.told = s.graph.told) : s'.Recalls := by
  constructor
  · intro l
    rw [heard.2, h.told, log, heard_append, unheard, List.append_nil]
  · intro c
    rw [heard.1, h.taken, log, given_append, ungiven, List.append_nil]

theorem tick (h : s.Recalls) {marks : List (Mark V)} {f : Graph B V W → Graph B V W}
    (tick : s.graph.Tick (fun _ => True) (f s.graph)) (unheard : ∀ l, heard l marks = [])
    (ungiven : ∀ c, given c marks = []) : (s.step marks f).Recalls :=
  h.quiet rfl unheard ungiven tick.heard

theorem called (h : s.Recalls) (l : ListenerId) (v : V) :
    (s.step [.called l v] (·.record (.called l v))).Recalls := by
  constructor
  · intro k
    refine (Graph.told_cons (g := s.graph) rfl k).trans ?_
    rw [h.told, step, heard_append]
    by_cases hk : l = k <;> simp [heard, Event.told?, Mark.heard?, hk]
  · intro c
    refine (Graph.taken_cons (g := s.graph) rfl c).trans ?_
    rw [h.taken, step, given_append]
    rfl

theorem change (h : s.Recalls) {ls : List ListenerId} {version n : Nat}
    (log : s'.log = s.log ++ [.changed c v ls])
    (history : s'.graph.history = (s.graph.span, .changed c v version n) :: s.graph.history) :
    s'.Recalls := by
  constructor
  · intro k
    rw [Graph.told_cons history, h.told, log, heard_append]
    rfl
  · intro d
    rw [Graph.taken_cons history, h.taken, log, given_append]
    by_cases hd : c = d <;> simp [given, Event.taken?, Mark.given?, hd]

end Recalls

theorem Move.recalls (move : Move same keeps s s') (h : s.Recalls) : s'.Recalls := by
  cases move with
  | aside parts scopes kept history quiet =>
    exact h.quiet rfl (fun _ => rfl) (fun _ => rfl) (Graph.heard_of_quiet history quiet)
  | create v => exact h.tick (.addCell v) (fun _ => rfl) (fun _ => rfl)
  | read => exact h.tick (.track s.graph _) (fun _ => rfl) (fun _ => rfl)
  | change hz differs changed =>
    obtain ⟨version, history⟩ :=
      (Graph.takes_of_assign hz differs (assigned_of_change changed)).history
    exact h.change (of_change hz differs changed).2.1 history
  | @hear r _ l => exact h.called l r.value
  | @skip r _ l _ _ _ _ _ _ top pending hy target hx idle parts scopes world events history quiet =>
    exact (h.called l r.value).quiet (List.append_cons ..) (fun _ => rfl) (fun _ => rfl)
      (Graph.heard_of_quiet history quiet)
  | @rerun r _ l _ _ e x =>
    have ran : ((s.step [.called l r.value] (·.record (.called l r.value))).step [.reran e]
        (·.start e x)).Recalls :=
      (h.called l r.value).tick (.start e x) (fun _ => rfl) (fun _ => rfl)
    rwa [step_step] at ran
  | leave => exact h.quiet rfl (fun _ => rfl) (fun _ => rfl) ⟨rfl, rfl⟩
  | @settle r =>
    have history := Graph.unpinAll_history r.captured s.graph
    exact h.quiet rfl (fun _ => rfl) (fun _ => rfl)
      ⟨funext (Graph.taken_congr history), funext (Graph.told_congr history)⟩
  | suspend => exact h.quiet rfl (fun _ => rfl) (fun _ => rfl) ⟨rfl, rfl⟩
  | resume => exact h.quiet rfl (fun _ => rfl) (fun _ => rfl) ⟨rfl, rfl⟩
  | subscribe c body =>
    exact h.tick (.subscribe c trivial) (fun _ => by split <;> rfl) (fun _ => by split <;> rfl)
  | release => exact h.tick (.release _) (fun _ => rfl) (fun _ => rfl)
  | spawn body =>
    have started : Graph.Tick (fun _ => True) (s.graph.addEffect body).2 _ :=
      .start s.graph.effects.length { body := body }
    exact h.quiet rfl (fun _ => rfl) (fun _ => rfl) started.heard
  | finish => exact h.tick (.finish _) (fun _ => rfl) (fun _ => rfl)
  | dispose e => exact h.tick (.dispose e) (fun _ => rfl) (fun _ => rfl)
  | drop e => exact h.tick (.drop e) (fun _ => rfl) (fun _ => rfl)

/-! ### Captures -/

/-- A change captures the first listener of a cell if it is guarded, or has been captured by an
announcement under way. -/
theorem Sound.captured_iff (h : s.Sound) (leads : s.graph.Leads c l)
    (subscribed : .subscribed c l ∈ s.log) (v : V) : l ∈ s.graph.liveSlots d ↔
      d = c ∧ ((c, l) ∈ s.account.guards ∨ ∃ r ∈ s.account.rounds, l ∈ r.captured) := by
  cases h.changed d v with
  | changed nodup guarded own =>
    constructor
    · intro hl
      obtain ⟨rfl, reason⟩ := own hl subscribed
      exact ⟨rfl, reason⟩
    · rintro ⟨rfl, guard | ⟨r, hr, hl⟩⟩
      · exact guarded guard
      · have pinned : s.graph.pinsOf l ≠ 0 := by
          rw [h.pinned.pins, ← Nat.pos_iff_ne_zero, List.count_pos_iff]
          exact List.mem_flatMap.2 ⟨r, hr, hl⟩
        have live : s.graph.isLive l = true := by simp [Graph.isLive_eq, pinned]
        exact Graph.mem_liveSlots.2 ⟨leads.attached live, live⟩

end Logged

/-- What is guarded stays so until it is given up. -/
theorem Proper.guards_append_iff (h : Proper (log ++ news))
    (guarded : (c, l) ∈ (account log).guards) :
    (c, l) ∈ (account (log ++ news)).guards ↔ .released l ∉ news := by
  constructor
  · intro kept released
    obtain ⟨first, rest, rfl⟩ := List.append_of_mem released
    have attached : ∃ d, .subscribed d l ∈ log ++ first := ⟨c,
      List.mem_append_left _ (subscribed_of_guards guarded)⟩
    rw [← List.append_assoc, List.append_cons] at h kept
    exact h.unguarded attached c kept
  · intro kept
    induction news using List.reverseRecOn with
    | nil => rwa [List.append_nil]
    | append_singleton news mark ih =>
      rw [← List.append_assoc] at h ⊢
      have old := ih h.of_append fun hm => kept (List.mem_append_left _ hm)
      rw [account_concat, Account.guards_after]
      cases mark with
      | subscribed d k => exact List.mem_append_left _ old
      | released k =>
        have other : l ≠ k := by
          rintro rfl
          exact kept (List.mem_append_right _ List.mem_cons_self)
        exact List.mem_filter.2 ⟨old, by simpa using other⟩
      | _ => exact old

/-- A change of a piece of a log captures a listener if the cell is its cell, and the listener has
not been given up or an announcement under way has captured it. -/
structure Captures (c : CellId) (l : ListenerId) (log news : List (Mark V)) : Prop where
  captured : ∀ {before after : List (Mark V)} {d : CellId} {v : V} {ls : List ListenerId},
    news = before ++ .changed d v ls :: after →
    (l ∈ ls ↔ d = c ∧ (.released l ∉ before ∨ ∃ r ∈ (account (log ++ before)).rounds,
      l ∈ r.captured))

namespace Captures

theorem nil : Captures c l log [] := ⟨fun h => by simp at h⟩

theorem concat (h : Captures c l log news) (last : ∀ {d : CellId} {v : V} {ls : List ListenerId},
    mark = .changed d v ls →
    (l ∈ ls ↔ d = c ∧ (.released l ∉ news ∨ ∃ r ∈ (account (log ++ news)).rounds,
      l ∈ r.captured))) :
    Captures c l log (news ++ [mark]) := by
  refine ⟨fun {before after d v ls} cut => ?_⟩
  rcases List.eq_nil_or_concat after with rfl | ⟨rest, m, rfl⟩
  · obtain ⟨rfl, heq⟩ := List.append_inj' cut rfl
    exact last (List.singleton_inj.1 heq)
  · rw [List.concat_eq_append, ← List.cons_append, ← List.append_assoc] at cut
    exact h.captured (List.append_inj' cut rfl).1

theorem of_append (h : Captures c l log (news ++ after)) : Captures c l log news := by
  refine ⟨?_⟩
  rintro before rest d v ls rfl
  exact h.captured (by rw [List.append_assoc, List.cons_append])

/-- Marks that are no changes add nothing to be captured. -/
theorem append (h : Captures c l log news) {marks : List (Mark V)}
    (still : ∀ d, given d marks = []) : Captures c l log (news ++ marks) := by
  induction marks using List.reverseRecOn with
  | nil => rwa [List.append_nil]
  | append_singleton marks mark ih =>
    simp only [given_append, List.append_eq_nil_iff] at still
    rw [← List.append_assoc]
    refine (ih fun d => (still d).1).concat fun {d v ls} changed => ?_
    have given := (still d).2
    simp [changed, Reactive.given, Mark.given?] at given

end Captures

namespace Logged
variable {s s' s'' : Logged B V W}

structure Retains (c : CellId) (l : ListenerId) (s s' : Logged B V W) : Prop where
  sound : s'.Sound
  leads : s'.graph.Leads c l
  captures : ∃ news, s'.log = s.log ++ news ∧ Captures c l s.log news

theorem Move.retains (move : Move same keeps s' s'') (guarded : (c, l) ∈ s.account.guards)
    (h : s.Retains c l s') : s.Retains c l s'' := by
  obtain ⟨sound, leads, news, log, captures⟩ := h
  refine ⟨move.sound sound, leads.ages move.ages, ?_⟩
  have still {marks : List (Mark V)} (added : s''.log = s'.log ++ marks) (quiet : ∀ d,
      given d marks = []) : ∃ news, s''.log = s.log ++ news ∧ Captures c l s.log news :=
    ⟨news ++ marks, by rw [added, log, List.append_assoc], captures.append quiet⟩
  cases move with
  | change hz differs changed =>
    obtain ⟨rfl, added, -⟩ := of_change hz differs changed
    refine ⟨_, by rw [added, log, List.append_assoc], captures.concat ?_⟩
    intro d v ls heq
    obtain ⟨rfl, -, rfl⟩ := Mark.changed.inj heq
    have subscribed : .subscribed c l ∈ s'.log :=
      log ▸ List.mem_append_left _ (subscribed_of_guards guarded)
    rw [sound.captured_iff leads subscribed v, ← log]
    have proper := log ▸ sound.proper
    rw [account, log, proper.guards_append_iff guarded]
  | subscribe d body => exact still rfl fun _ => by split <;> rfl
  | _ => exact still rfl fun _ => rfl

theorem Moves.retains (moves : Moves same keeps s s') (sound : s.Sound) (leads : s.graph.Leads c l)
    (guarded : (c, l) ∈ s.account.guards) : s.Retains c l s' :=
  moves.keep (fun move h => move.retains guarded h) ⟨sound, leads, [],
    (List.append_nil _).symm, .nil⟩

end Logged

/-! ### What the first listener is told -/

/-- As many values are brought to a listener as it is called with, once nothing awaits it. -/
theorem Proper.brought_length (h : Proper (log ++ news)) (l : ListenerId) :
    (news.flatMap (Mark.brings l)).length + ((account log).awaiting l).length =
      (heard l news).length + ((account (log ++ news)).awaiting l).length := by
  induction news using List.reverseRecOn with
  | nil => simp [heard]
  | append_singleton news mark ih =>
    rw [← List.append_assoc] at h ⊢
    have before := ih h.of_append
    have step := congrArg List.length (h.conserved l)
    rw [List.length_append, List.length_append] at step
    rw [heard_append, List.length_append, List.flatMap_append, List.flatMap_singleton,
      List.length_append]
    omega

theorem Proper.silent_of_mem (h : Proper (log ++ news)) (attached : ∃ d, .subscribed d l ∈ log)
    (released : .released l ∈ news)
    (uncaptured : ∀ r ∈ (account (log ++ news)).rounds, l ∉ r.captured) :
    Silent (log ++ news) l := by
  obtain ⟨first, rest, rfl⟩ := List.append_of_mem released
  rw [← List.append_assoc, List.append_cons (log ++ first)] at h uncaptured ⊢
  exact h.silent (attached.imp fun _ hm => List.mem_append_left _ hm) uncaptured

/-- Once a change of its cell does not capture it, no change does. -/
theorem Captures.brought (h : Captures c l log news) (proper : Proper (log ++ news))
    (attached : ∃ d, .subscribed d l ∈ log) : news.flatMap (Mark.brings l) = given c news ∨
      Silent (log ++ news) l ∧ news.flatMap (Mark.brings l) <+: given c news := by
  induction news using List.reverseRecOn with
  | nil => exact .inl rfl
  | append_singleton news mark ih =>
    rw [← List.append_assoc] at proper ⊢
    rw [List.flatMap_append, List.flatMap_singleton, given_append]
    have before := ih h.of_append proper.of_append
    have still (brings : mark.brings l = []) (ungiven : given c [mark] = []) :
        news.flatMap (Mark.brings l) ++ mark.brings l = given c news ++ given c [mark] ∨
          Silent (log ++ news ++ [mark]) l ∧
            news.flatMap (Mark.brings l) ++ mark.brings l <+: given c news ++ given c [mark] := by
      rw [brings, ungiven, List.append_nil, List.append_nil]
      exact before.imp_right fun h => ⟨(proper.silent_append h.1).2, h.2⟩
    cases mark with
    | changed d v ls =>
      have captured := h.captured rfl
      by_cases hl : l ∈ ls
      · obtain ⟨rfl, -⟩ := captured.1 hl
        rcases before with all | ⟨silent, -⟩
        · exact .inl (by simp [all, Mark.brings, hl, given, Mark.given?])
        · -- A listener that is silent is not captured.
          obtain ⟨e, attached⟩ := attached
          cases proper.last.2 with
          | changed nodup guarded own =>
            obtain ⟨-, guard | ⟨r, hr, hk⟩⟩ := own hl (List.mem_append_left _ attached)
            · exact absurd guard (silent.released d)
            · exact absurd hk (silent.uncaptured r hr)
      · have nothing : (Mark.changed d v ls).brings l = [] := if_neg hl
        by_cases hd : d = c
        · obtain ⟨released, uncaptured⟩ := not_or.1 fun reason => hl (captured.2 ⟨hd, reason⟩)
          have silent : Silent (log ++ news) l :=
            proper.of_append.silent_of_mem attached (not_not.1 released) fun r hr hk =>
              uncaptured ⟨r, hr, hk⟩
          have old : news.flatMap (Mark.brings l) <+: given c news :=
            before.elim (· ▸ List.prefix_refl _) And.right
          rw [nothing, List.append_nil]
          exact .inr ⟨(proper.silent_append silent).2, old.trans (List.prefix_append _ _)⟩
        · exact still nothing (List.filterMap_cons_none (if_neg hd))
    | _ => exact still rfl rfl

/-- It is called once for each change that captures it, in the order of the changes. -/
theorem Captures.heard_eq (h : Captures c l log news) (proper : Proper (log ++ news))
    (attached : ∃ d, .subscribed d l ∈ log) (idle : (account log).rounds = [])
    (idle' : (account (log ++ news)).rounds = []) (order : heard l news <+: given c news) :
    heard l news = news.flatMap (Mark.brings l) := by
  have brought : news.flatMap (Mark.brings l) <+: given c news :=
    (h.brought proper attached).elim (· ▸ List.prefix_refl _) And.right
  have length := proper.brought_length l
  rw [Account.awaiting, Account.awaiting, idle, idle'] at length
  exact (List.prefix_of_prefix_length_le order brought (Nat.le_of_eq length.symm)).eq_of_length
    length.symm

/-- What the first listener of a cell hears of the changes in a piece of a log. -/
structure Announced (c : CellId) (l : ListenerId) (g : Graph B V W) (log news : List (Mark V)) :
    Prop extends Captures c l log news where
  taken : g.taken c = given c news
  /-- It is called once for each change that has captured it, in the order of the changes. -/
  told : g.told l = news.flatMap (Mark.brings l)
  /-- It is not called once it has been given up and no announcement that has captured it is under
  way. -/
  silent : ∀ {during after : List (Mark V)}, news = during ++ after → .released l ∈ during →
    (∀ r ∈ (account (log ++ during)).rounds, l ∉ r.captured) → heard l after = []

theorem Logged.Rested.announced {s s' : Logged B V W} {b : B} (h : s.Rested keeps)
    (completes : Completes same keeps s s') (recalls : s.Recalls) (leads : s.graph.Leads c l)
    (attends : s.graph.Attends l c (.call b)) (untaken : s.graph.taken c = [])
    (untold : s.graph.told l = []) (order : s'.graph.told l <+: s'.graph.taken c) :
    ∃ news, s'.log = s.log ++ news ∧ Announced c l s'.graph s.log news := by
  have guarded : (c, l) ∈ s.account.guards := h.guarded.guards.2 ⟨b, attends⟩
  have attached : ∃ d, .subscribed d l ∈ s.log := ⟨c, subscribed_of_guards guarded⟩
  have rested := h.completes completes
  have recalls' := Moves.keep Move.recalls completes.moves recalls
  obtain ⟨-, -, news, log, captures⟩ := Moves.retains completes.moves h.toSound leads guarded
  have proper := log ▸ rested.proper
  have taken : s'.graph.taken c = given c news := by
    rw [recalls'.taken, log, given_append, ← recalls.taken, untaken, List.nil_append]
  have told : s'.graph.told l = heard l news := by
    rw [recalls'.told, log, heard_append, ← recalls.told, untold, List.nil_append]
  have idle {t : Logged B V W} (h : t.Rested keeps) : (Reactive.account t.log).rounds = [] := by
    rw [Account.rounds, show (Reactive.account t.log).layers = [] from h.idle]
    rfl
  refine ⟨news, log, captures, taken, ?_, ?_⟩
  · rw [told]
    rw [told, taken] at order
    exact captures.heard_eq proper attached (idle h) (log ▸ idle rested) order
  · rintro during after rfl released uncaptured
    rw [← List.append_assoc] at proper
    exact (proper.silent_append (proper.of_append.silent_of_mem attached released uncaptured)).1

end StoryPreview.Reactive
