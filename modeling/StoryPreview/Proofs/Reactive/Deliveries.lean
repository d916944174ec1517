import StoryPreview.Proofs.Reactive.Scheduling
/-!
What listeners are called with. Announcements nest, so the values that are still to reach a listener
are a stack: a change puts its value on top, and each call takes the value from the top. A listener
that has been given up is called as long as an announcement that has captured it is under way, and
never afterwards.
-/
namespace StoryPreview.Reactive
variable {B V W : Type} {same : V → V → Bool} {keeps : W → ListenerId → Prop} {m : Meaning B V W}
variable {log news before after : List (Mark V)} {mark : Mark V} {c : CellId} {l : ListenerId}
    {v : V}

def Mark.heard? (l : ListenerId) : Mark V → Option V
  | .called k v => if k = l then some v else none
  | _ => none

def heard (l : ListenerId) (log : List (Mark V)) : List V := log.filterMap (Mark.heard? l)

def Mark.given? (c : CellId) : Mark V → Option V
  | .changed d v _ => if d = c then some v else none
  | _ => none

def given (c : CellId) (log : List (Mark V)) : List V := log.filterMap (Mark.given? c)

theorem heard_append (log news : List (Mark V)) :
    heard l (log ++ news) = heard l log ++ heard l news :=
  List.filterMap_append

theorem given_append (log news : List (Mark V)) :
    given c (log ++ news) = given c log ++ given c news :=
  List.filterMap_append

def Round.owes? (l : ListenerId) (r : Round V) : Option V :=
  if l ∈ r.pending then some r.value else none

def Account.awaiting (a : Account V) (l : ListenerId) : List V := a.rounds.filterMap (Round.owes? l)

def Mark.brings (l : ListenerId) : Mark V → List V
  | .changed _ v captured => if l ∈ captured then [v] else []
  | _ => []

theorem mem_given {captured : List ListenerId} (h : .changed c v captured ∈ log) :
    v ∈ given c log :=
  List.mem_filterMap.2 ⟨_, h, if_pos rfl⟩

/-! ### The guards in a log -/

theorem Account.guards_after (a : Account V) (mark : Mark V) :
    (a.after mark).guards = match mark with
    | .subscribed c l => a.guards ++ [(c, l)]
    | .released l => a.guards.filter (·.2 ≠ l)
    | _ => a.guards := by
  cases mark with
  | ended e | disposed e | dropped e =>
    rw [Account.after]
    split <;> rfl
  | _ => rfl

/-- What is guarded has been guarded before, or has been attached since. -/
theorem mem_guards_append (h : (c, l) ∈ (account (log ++ news)).guards) :
    (c, l) ∈ (account log).guards ∨ .subscribed c l ∈ news := by
  induction news using List.reverseRecOn with
  | nil => exact .inl (List.append_nil log ▸ h)
  | append_singleton news mark ih =>
    rw [← List.append_assoc, account_concat, Account.guards_after] at h
    have old (h : (c, l) ∈ (account (log ++ news)).guards) :
        (c, l) ∈ (account log).guards ∨ .subscribed c l ∈ news ++ [mark] :=
          (ih h).imp_right (List.mem_append_left _)
    cases mark with
    | subscribed d k =>
      rcases List.mem_append.1 h with h | h
      · exact old h
      · obtain ⟨rfl, rfl⟩ := Prod.mk.inj (List.mem_singleton.1 h)
        exact .inr (List.mem_append_right _ List.mem_cons_self)
    | released k => exact old (List.mem_of_mem_filter h)
    | _ => exact old h

theorem subscribed_of_guards (h : (c, l) ∈ (account log).guards) : .subscribed c l ∈ log := by
  rw [← List.nil_append log] at h
  exact (mem_guards_append h).resolve_left List.not_mem_nil

/-- What is guarded before and after a piece of a log is guarded all the time. -/
theorem Proper.guards_between (h : Proper (log ++ (before ++ after)))
    (old : (c, l) ∈ (account log).guards)
    (kept : (c, l) ∈ (account (log ++ (before ++ after))).guards) :
    (c, l) ∈ (account (log ++ before)).guards := by
  rw [← List.append_assoc] at h kept
  refine (mem_guards_append kept).resolve_right fun again => ?_
  obtain ⟨first, rest, rfl⟩ := List.append_of_mem again
  rw [← List.append_assoc] at h
  cases h.lawful with
  | subscribed c fresh =>
    exact fresh c (List.mem_append_left _ (List.mem_append_left _ (subscribed_of_guards old)))

/-! ### The stack of values that are still to reach a listener -/

namespace Proper

/-- Nothing that is brought to a listener is lost, and it is called with what has been brought
last. -/
theorem conserved (h : Proper (log ++ [mark])) (l : ListenerId) :
    mark.brings l ++ (account log).awaiting l = heard l [mark] ++
      (account (log ++ [mark])).awaiting l := by
  obtain ⟨proper, lawful⟩ := h.last
  rw [Account.awaiting, Account.awaiting, lawful.rounds]
  cases lawful with
  | @changed c v captured =>
    have stirred : ((account log).rounds.map Round.stirred).filterMap (Round.owes? l) =
        (account log).rounds.filterMap (Round.owes? l) := List.filterMap_map
    change (if l ∈ captured then [v] else []) ++ _ =
      List.filterMap _ (Account.announcement _ c v captured :: _)
    by_cases hl : l ∈ captured
    · have owed : Round.owes? l ((account log).announcement c v captured) = some v := if_pos hl
      rw [if_pos hl, List.filterMap_cons_some owed, stirred]
      rfl
    · have owed : Round.owes? l ((account log).announcement c v captured) = none := if_neg hl
      rw [if_neg hl, List.filterMap_cons_none owed, stirred]
      rfl
  | @settled r layers top done =>
    have owed : Round.owes? l r = none := if_neg (by simp [done])
    rw [Account.roundsAfter, rounds_of_round top, List.filterMap_cons_none owed]
    rfl
  | @called r layers k ks top pending =>
    have nodup : (k :: ks).Nodup := by
      have orderly := proper.orderly r (rounds_of_round top ▸ List.mem_cons_self)
      exact pending ▸ orderly.nodup.sublist orderly.pending
    rw [Account.roundsAfter, rounds_of_round top, List.modifyHead_cons, pending,
      List.erase_cons_head]
    by_cases hk : k = l
    · subst hk
      have owed : Round.owes? k r = some r.value := if_pos (pending ▸ List.mem_cons_self)
      have paid : Round.owes? k { r with pending := ks } = none :=
        if_neg (List.nodup_cons.1 nodup).1
      rw [List.filterMap_cons_some owed, List.filterMap_cons_none paid]
      simp [Mark.brings, heard, Mark.heard?]
    · have still : Round.owes? l { r with pending := ks } = Round.owes? l r := by
        simp [Round.owes?, pending, Ne.symm hk]
      rw [List.filterMap_cons, List.filterMap_cons, still]
      simp [Mark.brings, heard, Mark.heard?, hk]
  | reran top =>
    rw [Account.roundsAfter, rounds_of_call top]
    rfl
  | _ => rfl

/-- As long as nothing else is brought to a listener, it is called with what awaits it, from the top
of the stack. -/
theorem heard_of_quiet (h : Proper (log ++ news)) (quiet : ∀ mark ∈ news, mark.brings l = []) :
    (account log).awaiting l = heard l news ++ (account (log ++ news)).awaiting l := by
  induction news using List.reverseRecOn with
  | nil => rw [List.append_nil]; rfl
  | append_singleton news mark ih =>
    rw [← List.append_assoc] at h ⊢
    have step := h.conserved l
    rw [quiet mark (List.mem_append_right _ List.mem_cons_self), List.nil_append] at step
    calc (account log).awaiting l
        = heard l news ++ (account (log ++ news)).awaiting l :=
          ih h.of_append fun mark hm => quiet mark (List.mem_append_left _ hm)
      _ = (heard l news ++ heard l [mark]) ++ (account (log ++ news ++ [mark])).awaiting l := by
          rw [step, ← List.append_assoc]
      _ = heard l (news ++ [mark]) ++ (account (log ++ news ++ [mark])).awaiting l := by
          rw [heard_append]

/-- From the last change of a cell on, a listener is called with its value, and then with what had
awaited the listener. -/
theorem heard_of_change {captured : List ListenerId}
    (h : Proper (log ++ .changed c v captured :: after))
    (done : (account (log ++ .changed c v captured :: after)).rounds = [])
    (last : given c after = []) (guarded : (c, l) ∈ (account log).guards) :
    heard l after = v :: (account log).awaiting l := by
  have member : l ∈ captured := by
    cases h.lawful with
    | changed nodup guards => exact guards guarded
  have brings : (Mark.changed c v captured).brings l = [v] := if_pos member
  rw [List.append_cons] at h done
  have pushed := h.of_append.conserved l
  rw [brings] at pushed
  have quiet : ∀ mark ∈ after, mark.brings l = [] := by
    intro mark hm
    cases mark with
    | changed d w ks =>
      refine if_neg fun hl => ?_
      obtain ⟨first, rest, rfl⟩ := List.append_of_mem hm
      rw [← List.append_assoc] at h
      cases h.lawful with
      | changed nodup guards own =>
        have subscribed :=
          List.mem_append_left [.changed c v captured] (subscribed_of_guards guarded)
        obtain ⟨rfl, -⟩ := own hl (List.mem_append_left _ subscribed)
        exact absurd last (List.ne_nil_of_mem (mem_given hm))
    | _ => rfl
  have flow := h.heard_of_quiet quiet
  rw [Account.awaiting, Account.awaiting, done] at flow
  exact (pushed.trans flow |>.trans (List.append_nil _)).symm

end Proper

/-! ### Listeners that have been given up -/

/-- A listener has been attached by itself, it has been given up, and no announcement that has
captured it is under way. -/
structure Silent (log : List (Mark V)) (l : ListenerId) : Prop where
  attached : ∃ d, .subscribed d l ∈ log
  released : ∀ d, (d, l) ∉ (account log).guards
  uncaptured : ∀ r ∈ (account log).rounds, l ∉ r.captured

theorem Lawful.silent (h : Lawful log mark) (orderly : ∀ r ∈ (account log).rounds, r.Orderly)
    (silent : Silent log l) : mark.heard? l = none ∧ Silent (log ++ [mark]) l := by
  obtain ⟨⟨d, attached⟩, released, uncaptured⟩ := silent
  have guards : ∀ d, (d, l) ∉ (account (log ++ [mark])).guards := by
    intro d' guarded
    rcases mem_guards_append guarded with old | again
    · exact released d' old
    · obtain rfl := List.mem_singleton.1 again
      cases h with
      | subscribed c fresh => exact fresh d attached
  have stays (unheard : mark.heard? l = none) (rounds : ∀ r ∈ (account log).roundsAfter mark,
      l ∉ r.captured) : mark.heard? l = none ∧ Silent (log ++ [mark]) l :=
    ⟨unheard, ⟨d, List.mem_append_left _ attached⟩, guards, h.rounds ▸ rounds⟩
  cases h with
  | @changed c v captured nodup guarded own =>
    refine stays rfl (List.forall_mem_cons.2 ⟨fun hl => ?_, fun r hr => ?_⟩)
    · obtain ⟨-, guard | ⟨r, hr, hk⟩⟩ := own hl attached
      · exact released c guard
      · exact uncaptured r hr hk
    · obtain ⟨k, hk, rfl⟩ := List.mem_map.1 hr
      exact uncaptured k hk
  | settled => exact stays rfl fun r hr => uncaptured r (List.mem_of_mem_tail hr)
  | @called r layers k ks top pending =>
    have hr : r ∈ (account log).rounds := rounds_of_round top ▸ List.mem_cons_self
    have other : k ≠ l := by
      rintro rfl
      exact uncaptured r hr ((orderly r hr).pending.subset (pending ▸ List.mem_cons_self))
    rw [rounds_of_round top] at uncaptured
    refine stays (if_neg other) ?_
    rw [Account.roundsAfter, rounds_of_round top]
    exact List.forall_mem_cons.2 (List.forall_mem_cons.1 uncaptured)
  | reran top =>
    rw [rounds_of_call top] at uncaptured
    refine stays rfl ?_
    rw [Account.roundsAfter, rounds_of_call top]
    exact List.forall_mem_cons.2 (List.forall_mem_cons.1 uncaptured)
  | _ => exact stays rfl uncaptured

theorem Proper.silent_append (h : Proper (log ++ news)) (silent : Silent log l) :
    heard l news = [] ∧ Silent (log ++ news) l := by
  induction news using List.reverseRecOn with
  | nil => exact ⟨rfl, (List.append_nil log).symm ▸ silent⟩
  | append_singleton news mark ih =>
    rw [← List.append_assoc] at h ⊢
    obtain ⟨proper, lawful⟩ := h.last
    obtain ⟨quiet, silent⟩ := ih proper
    obtain ⟨unheard, silent⟩ := lawful.silent proper.orderly silent
    refine ⟨?_, silent⟩
    rw [heard_append, quiet, List.nil_append, heard, List.filterMap_cons_none unheard,
      List.filterMap_nil]

theorem Proper.unguarded {during : List (Mark V)} (h : Proper (before ++ [.released l] ++ during))
    (attached : ∃ d, .subscribed d l ∈ before) (d : CellId) :
    (d, l) ∉ (account (before ++ [.released l] ++ during)).guards := by
  intro guarded
  rcases mem_guards_append guarded with old | again
  · rw [account_concat, Account.guards_after] at old
    exact of_decide_eq_true (List.mem_filter.1 old).2 rfl
  · obtain ⟨c, attached⟩ := attached
    obtain ⟨first, rest, rfl⟩ := List.append_of_mem again
    rw [← List.append_assoc] at h
    cases h.lawful with
    | subscribed d fresh => exact fresh c (List.mem_append_left _ (List.mem_append_left _ attached))

theorem Proper.silent {during : List (Mark V)} (h : Proper (before ++ [.released l] ++ during))
    (attached : ∃ d, .subscribed d l ∈ before)
    (uncaptured : ∀ r ∈ (account (before ++ [.released l] ++ during)).rounds, l ∉ r.captured) :
    Silent (before ++ [.released l] ++ during) l :=
  ⟨attached.imp fun _ hm => List.mem_append_left _ (List.mem_append_left _ hm),
    h.unguarded attached, uncaptured⟩

/-- Once a listener is given up and no announcement that has captured it is under way, it is not
called again. -/
theorem Proper.unheard {during : List (Mark V)}
    (h : Proper (before ++ [.released l] ++ during ++ after))
    (attached : ∃ d, .subscribed d l ∈ before)
    (uncaptured : ∀ r ∈ (account (before ++ [.released l] ++ during)).rounds, l ∉ r.captured) :
    heard l after = [] :=
  (h.silent_append (h.of_append.silent attached uncaptured)).1

/-! ### The values of cells -/

namespace Logged
variable {s s' : Logged B V W}

def Valued (s : Logged B V W) : Prop := ∀ c v, (given c s.log).getLast? = some v →
    s.graph.Shows (c, v)

theorem Valued.step (h : s.Valued) {marks : List (Mark V)} {f : Graph B V W → Graph B V W}
    (quiet : ∀ c, given c marks = [])
    (shows : ∀ {p : CellId × V}, s.graph.Shows p → (f s.graph).Shows p) :
    (s.step marks f).Valued := by
  intro c v last
  have marked : given c (s.log ++ marks) = given c s.log := by
    rw [given_append, quiet, List.append_nil]
  exact shows (h c v (marked ▸ last))

theorem Move.valued (move : Move same keeps s s') (h : s.Valued) : s'.Valued := by
  have steady {g g' : Graph B V W} (steady : g.Steady g') {p : CellId × V} (shows : g.Shows p) :
      g'.Shows p :=
    (steady.value p.1).trans shows
  cases move with
  | aside parts => exact h.step (fun _ => rfl) (steady parts.steady)
  | create v =>
    have added : Graph.Spares none s.graph (s.graph.addCell v).2 := .addCell s.graph v
    exact h.step (fun _ => rfl) added.shows
  | @read c _ hz =>
    refine h.step (fun _ => rfl) fun {p} shows => ?_
    rw [Graph.Shows, Graph.track_cells]
    exact shows
  | @change c v z ls _ hz differs changed =>
    obtain ⟨-, log, alike⟩ := of_change hz differs changed
    intro d w last
    have cell : s'.graph.cells[d]? = if c = d then some ⟨v, z.version + 1, ls⟩
        else s.graph.cells[d]? := by
      rw [alike.cells, Graph.withCell_cell (List.getElem?_eq_some_iff.1 hz).1]
    rw [log, given_append] at last
    rw [Graph.Shows, cell]
    by_cases hd : c = d
    · rw [if_pos hd]
      simpa [given, Mark.given?, hd] using last
    · have other : given d [Mark.changed c v ls] = [] := List.filterMap_cons_none (if_neg hd)
      rw [other, List.append_nil] at last
      rw [if_neg hd]
      exact h d w last
  | hear => exact h.step (fun _ => rfl) id
  | skip top pending hy target hx idle parts => exact h.step (fun _ => rfl) (steady parts.steady)
  | @rerun r _ l _ _ e x =>
    exact h.step (fun _ => rfl)
      (steady (Graph.Steady.start (s.graph.record (.called l r.value)) e x))
  | leave => exact h.step (fun _ => rfl) id
  | settle => exact h.step (fun _ => rfl) (steady (Graph.Alike.foldl Graph.Alike.unpin _ _).steady)
  | suspend => exact h.step (fun _ => rfl) id
  | resume => exact h.step (fun _ => rfl) id
  | subscribe c body =>
    refine h.step (fun d => ?_) (steady (Graph.Steady.subscribe _ c _))
    split <;> rfl
  | release => exact h.step (fun _ => rfl) (steady (Graph.Steady.releaseAll _ [_]))
  | spawn body =>
    exact h.step (fun _ => rfl) (steady (Graph.Steady.start (s.graph.addEffect body).2 _ _))
  | finish => exact h.step (fun _ => rfl) (Graph.Spares.finish s.graph _).shows
  | dispose e => exact h.step (fun _ => rfl) (steady (Graph.Steady.dispose s.graph e))
  | drop e => exact h.step (fun _ => rfl) (steady (Graph.Steady.drop s.graph e))

/-- Logs only grow. -/
theorem Move.exists_news (move : Move same keeps s s') : ∃ news, s'.log = s.log ++ news := by
  cases move with
  | change hz differs changed => exact ⟨_, (of_change hz differs changed).2.1⟩
  | _ => exact ⟨_, rfl⟩

theorem Moves.exists_news (moves : Moves same keeps s s') : ∃ news, s'.log = s.log ++ news := by
  induction moves with
  | refl => exact ⟨[], (List.append_nil _).symm⟩
  | tail _ move ih =>
    obtain ⟨first, old⟩ := ih
    obtain ⟨rest, new⟩ := move.exists_news
    exact ⟨first ++ rest, by rw [new, old, List.append_assoc]⟩

end Logged

/-! ### Calls from outside -/

structure Delivered (g : Graph B V W) (log news : List (Mark V)) : Prop where
  shows : ∀ {before after : List (Mark V)} {c : CellId} {u : V} {captured : List ListenerId},
    news = before ++ .changed c u captured :: after → given c after = [] → g.Shows (c, u)
  /-- Since then a listener that is still guarded was called with that value, and then with what
  awaited it before. -/
  stacked : ∀ {before after : List (Mark V)} {c : CellId} {u : V} {captured :
    List ListenerId} {l : ListenerId},
    news = before ++ .changed c u captured :: after → given c after = [] →
    (c, l) ∈ (account log).guards →
      (c, l) ∈ (account (log ++ news)).guards →
      heard l after = u :: (account (log ++ before)).awaiting l
  /-- The last value that it has been called with is that value, if nothing awaited it before. -/
  latest : ∀ {before after : List (Mark V)} {c : CellId} {u : V} {captured :
    List ListenerId} {l : ListenerId},
    news = before ++ .changed c u captured :: after → given c after = [] →
    (c, l) ∈ (account log).guards →
      (c, l) ∈ (account (log ++ news)).guards → (account (log ++ before)).awaiting l = [] →
      (heard l news).getLast? = some u

theorem Delivered.of_rested {g : Graph B V W} (h : Logged.Rested keeps ⟨g, log ++ news⟩)
    (valued : Logged.Valued ⟨g, log ++ news⟩) : Delivered g log news := by
  have stacked {before after : List (Mark V)} {c : CellId} {u : V}
      {captured : List ListenerId} {l : ListenerId}
      (cut : news = before ++ .changed c u captured :: after) (last : given c after = [])
      (old : (c, l) ∈ (account log).guards) (kept : (c, l) ∈ (account (log ++ news)).guards) :
      heard l after = u :: (account (log ++ before)).awaiting l := by
    obtain ⟨proper, idle⟩ : Proper (log ++ news) ∧ (account (log ++ news)).layers = [] :=
      ⟨h.proper, h.idle⟩
    subst cut
    have guarded := proper.guards_between old kept
    rw [← List.append_assoc] at proper idle
    exact proper.heard_of_change (by rw [Account.rounds, idle]; rfl) last guarded
  refine ⟨?_, stacked, ?_⟩
  · rintro before after c u captured rfl last
    refine valued c u ?_
    rw [given] at last
    simp [given, Mark.given?, last]
  · intro before after c u captured l cut last old kept awaiting
    have after_heard := stacked cut last old kept
    rw [awaiting] at after_heard
    rw [cut, heard_append, heard, heard, List.filterMap_cons_none rfl, ← heard, ← heard,
      after_heard]
    exact List.getLast?_concat

variable {g₀ g₁ g₂ : Graph B V W} {calls : List (Nat × Program B V W Unit)}

/-- When a call from outside returns that has changed a cell, the listeners of the cell have been
called with its value last, but for those that an announcement under way had still to call when the
cell was given that value. -/
theorem last_change_is_heard (honest : m.Honest keeps) (blank : g₀.Blank keeps)
    (alone : ∀ call ∈ calls, call.2.HonestAlone keeps) (ran : runAll m calls g₀ = some g₁)
    {depth : Nat} {p : Program B V W Unit} (alone' : p.HonestAlone keeps)
    (ran' : runAll m [(depth, p)] g₁ = some g₂) :
    ∃ log news, logAll m calls ⟨g₀, []⟩ = some ⟨g₁, log⟩ ∧
    logAll m [(depth, p)] ⟨g₁, log⟩ = some ⟨g₂, log ++ news⟩ ∧
      Delivered g₂ log news := by
  obtain ⟨log, logged⟩ := exists_log (s := ⟨g₀, []⟩) ran
  obtain ⟨log', logged'⟩ := exists_log (s := ⟨g₁, log⟩) ran'
  have rested := blank.rested.calls honest alone logged
  have moves := (Logged.completes_logAll honest alone False.elim logged blank.rested.kept).moves
  replace alone' : ∀ call ∈ [(depth, p)], call.2.HonestAlone keeps :=
    List.forall_mem_singleton.2 alone'
  have moves' := (Logged.completes_logAll honest alone' False.elim logged' rested.kept).moves
  obtain ⟨news, rfl⟩ : ∃ news, log' = log ++ news := moves'.exists_news
  have valued : Logged.Valued ⟨g₀, ([] : List (Mark V))⟩ := by simp [Logged.Valued, given]
  have last := Logged.Moves.keep Logged.Move.valued (moves.trans moves') valued
  exact ⟨log, news, logged, logged', Delivered.of_rested (rested.calls honest alone' logged') last⟩

namespace Script

def unset : Graph Block Argument State := begin 20 [("x", .text "")]

def setOne : Code Unit := statement (.set "x" (.text "one"))

def answer : Statement :=
  .subscribe "answer" "x" [.branch "x" (.text "one") [.set "x" (.text "two")] []]

def answerLast : List Statement := [.subscribe "plain" "x" [], answer]

theorem last_change_is_heard_answered : ∃ g₁ g₂ log news,
    logAll meaning (answerLast.map fun s => (8, statement s)) ⟨unset, []⟩ = some ⟨g₁, log⟩ ∧
    logAll meaning [(8, setOne)] ⟨g₁, log⟩ = some ⟨g₂, log ++ news⟩ ∧
    heard 0 (log ++ news) = [.text "one", .text "two"] ∧ Delivered g₂ log news := by
  have evaluated :
    ((logAll meaning (answerLast.map fun s => (8, statement s)) ⟨unset, []⟩).bind fun s =>
      (logAll meaning [(8, setOne)] s).map fun s' => heard 0 s'.log) = some [.text "one",
          .text "two"] := by
    decide +kernel
  obtain ⟨⟨g₁, log⟩, first, rest⟩ := Option.bind_eq_some_iff.1 evaluated
  obtain ⟨⟨g₂, log'⟩, second, calls⟩ := Option.map_eq_some_iff.1 rest
  have ran := logAll_erase meaning (answerLast.map fun s => (8, statement s)) ⟨unset, []⟩
  rw [first] at ran
  have ran' := logAll_erase meaning [(8, setOne)] ⟨g₁, log⟩
  rw [second] at ran'
  obtain ⟨_, news, logged, logged', delivered⟩ := last_change_is_heard honest_meaning
    (blank_begin 20 [("x", .text "")]) (honest_script answerLast) ran.symm
      (honest_statement _) ran'.symm
  obtain rfl := congrArg Logged.log (Option.some.inj (first.symm.trans logged))
  obtain rfl : log' = log ++ news :=
    congrArg Logged.log (Option.some.inj (second.symm.trans logged'))
  exact ⟨g₁, g₂, log, news, first, second, calls, delivered⟩

/-- The listener that answers comes first: the other one hears of the answer, and then of the change
that was answered. -/
def answerFirst : List Statement := [answer, .subscribe "plain" "x" []]

theorem older_value_is_heard_last : ∃ g₁ g₂ log news,
    logAll meaning (answerFirst.map fun s => (8, statement s)) ⟨unset, []⟩ = some ⟨g₁, log⟩ ∧
    logAll meaning [(8, setOne)] ⟨g₁, log⟩ = some ⟨g₂, log ++ news⟩ ∧
    (0, 1) ∈ (account log).guards ∧ (0, 1) ∈ (account (log ++ news)).guards ∧
    g₂.Shows (0, .text "two") ∧ heard 1 news = [.text "two", .text "one"] := by
  have evaluated :
    ((logAll meaning (answerFirst.map fun s => (8, statement s)) ⟨unset, []⟩).bind fun s =>
      (logAll meaning [(8, setOne)] s).map fun s' =>
        (((account s.log).guards, (account s'.log).guards), (heard 1 s.log, heard 1 s'.log),
          s'.graph.cells[0]?.map Cell.value)) =
      some (([(0, 0), (0, 1)], [(0, 0), (0, 1)]), ([], [.text "two", .text "one"]),
        some (.text "two")) := by
    decide +kernel
  obtain ⟨⟨g₁, log⟩, first, rest⟩ := Option.bind_eq_some_iff.1 evaluated
  obtain ⟨⟨g₂, log'⟩, second, seen⟩ := Option.map_eq_some_iff.1 rest
  obtain ⟨⟨guards, guards'⟩, ⟨silent, calls⟩, value⟩ : (_ ∧ _) ∧ (_ ∧ _) ∧ _ := by
    simpa only [Prod.mk.injEq] using seen
  have rested :=
    (blank_begin 20 [("x", .text "")]).rested.calls honest_meaning (honest_script answerFirst) first
  have alone : ∀ call ∈ [(8, setOne)], call.2.HonestAlone Keeps :=
    List.forall_mem_singleton.2 (honest_statement _)
  obtain ⟨news, rfl⟩ : ∃ news, log' = log ++ news :=
    (Logged.completes_logAll honest_meaning alone False.elim second rested.kept).moves.exists_news
  refine ⟨g₁, g₂, log, news, first, second, ?_, ?_, value, ?_⟩
  · simp [guards]
  · simp [guards']
  · rwa [heard_append, silent, List.nil_append] at calls

end Script

/-- A listener that has been given up is not called again once no announcement that has captured it
is under way. -/
def FallSilent (log : List (Mark V)) : Prop :=
  ∀ before during after l, log = before ++ [.released l] ++ during ++ after →
    (∃ c, .subscribed c l ∈ before) →
    (∀ r ∈ (account (before ++ [.released l] ++ during)).rounds, l ∉ r.captured) →
    heard l after = []

theorem released_listeners_fall_silent (honest : m.Honest keeps) (blank : g₀.Blank keeps)
    (alone : ∀ call ∈ calls, call.2.HonestAlone keeps) (ran : runAll m calls g₀ = some g₁) :
    ∃ log, logAll m calls ⟨g₀, []⟩ = some ⟨g₁, log⟩ ∧ FallSilent log := by
  obtain ⟨log, logged⟩ := exists_log (s := ⟨g₀, []⟩) ran
  refine ⟨log, logged, ?_⟩
  rintro before during after l rfl attached uncaptured
  have proper : Proper (before ++ [.released l] ++ during ++ after) :=
    (blank.rested.calls honest alone logged).proper
  exact proper.unheard attached uncaptured

namespace Script

/-- Of two listeners, the first gives up the second while a change is announced to both; then there
is another change. -/
def givenUp : List Statement :=
  [.subscribe "first" "x" [.unsubscribe "second"], .subscribe "second" "x" [],
    .set "x" (.text "one"), .set "x" (.text "two")]

theorem released_listeners_fall_silent_once_announced : ∃ g log,
    logAll meaning (givenUp.map fun s => (8, statement s)) ⟨unset, []⟩ = some ⟨g, log⟩ ∧
    heard 0 log = [.text "one", .text "two"] ∧ heard 1 log = [.text "one"] ∧ FallSilent log := by
  have evaluated : (logAll meaning (givenUp.map fun s => (8, statement s)) ⟨unset, []⟩).map
      (fun s => (heard 0 s.log, heard 1 s.log)) = some ([.text "one", .text "two"],
          [.text "one"]) := by
    decide +kernel
  obtain ⟨⟨g, log⟩, first, calls⟩ := Option.map_eq_some_iff.1 evaluated
  have ran := logAll_erase meaning (givenUp.map fun s => (8, statement s)) ⟨unset, []⟩
  rw [first] at ran
  obtain ⟨_, logged, silent⟩ :=
    released_listeners_fall_silent honest_meaning (blank_begin 20 [("x", .text "")])
    (honest_script givenUp) ran.symm
  obtain rfl := congrArg Logged.log (Option.some.inj (first.symm.trans logged))
  exact ⟨g, log, first, congrArg Prod.fst calls, congrArg Prod.snd calls, silent⟩

end Script
end StoryPreview.Reactive
