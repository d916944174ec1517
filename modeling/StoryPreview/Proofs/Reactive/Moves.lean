import Mathlib.Logic.Relation
import StoryPreview.Proofs.Reactive.Audience
import StoryPreview.Proofs.Reactive.Freshness
import StoryPreview.Proofs.Reactive.Logging
/-!
The single moves that runs are made of. A move is one thing that a program or an announcement does;
what it may do next depends on what is under way. Every run of an honest program is a sequence of
moves, and leaves under way what was. So what every move keeps is true at any moment of any run.
-/
namespace StoryPreview.Reactive
variable {B V W α : Type} {same : V → V → Bool} {keeps : W → ListenerId → Prop}

namespace Layer

def shape : Layer V → Layer V
  | .run e _ => .run e []
  | .round r => .round { r with ran := [], calm := true }
  | layer => layer

@[simp] theorem map_shape_credit (c : CellId) (layers : List (Layer V)) :
    (credit c layers).map shape = layers.map shape := by
  induction layers with
  | nil => rfl
  | cons layer layers ih => cases layer <;> simp [credit, shape, ih]

@[simp] theorem map_shape_stir (layers : List (Layer V)) :
    (layers.map stir).map shape = layers.map shape := by
  rw [List.map_map]
  refine List.map_congr_left fun layer _ => ?_
  cases layer <;> rfl

theorem shape_eq_run {layer : Layer V} {e : EffectId} {reads : List CellId}
    (h : layer.shape = .run e reads) : ∃ reads', layer = .run e reads' := by
  cases layer <;> simp [shape] at h
  exact ⟨_, by rw [h.1]⟩

theorem shape_eq_round {layer : Layer V} {r : Round V} (h : layer.shape = (Layer.round r).shape) :
    ∃ ran calm, layer = .round { r with ran, calm } := by
  cases layer <;> simp [shape] at h
  rename_i r'
  exact ⟨r'.ran, r'.calm, by rw [← h.1, ← h.2.1, ← h.2.2.1, ← h.2.2.2.1, ← h.2.2.2.2]⟩

theorem shape_eq_call {layer : Layer V} {l : ListenerId} (h : layer.shape = .call l) :
    layer = .call l := by
  cases layer <;> simp [shape] at h
  rw [h]

theorem shape_eq_untracked {layer : Layer V} (h : layer.shape = .untracked) :
    layer = .untracked := by
  cases layer <;> simp [shape] at h
  rfl

end Layer

/-- The layers of an account without what the inner ones may add to them. -/
def Account.shape (a : Account V) : List (Layer V) := a.layers.map Layer.shape

namespace Logged

theorem account_step (s : Logged B V W) (marks : List (Mark V)) (f : Graph B V W → Graph B V W) :
    (s.step marks f).account = marks.foldl Account.after s.account := account_append s.log marks

theorem step_step (s : Logged B V W) (marks news : List (Mark V))
    (f f' : Graph B V W → Graph B V W) :
    (s.step marks f).step news f' = s.step (marks ++ news) fun g => f' (f g) := by
  simp [step]

/-! ### Accounts after moves -/

section Account
variable {s s' : Logged B V W} {f : Graph B V W → Graph B V W} {l : ListenerId}
    {ls : List ListenerId} {v : V} {e : EffectId}
variable {r : Round V} {layers : List (Layer V)}

theorem account_still (s : Logged B V W) (f : Graph B V W → Graph B V W) :
    (s.step [] f).account = s.account :=
  s.account_step [] f

theorem account_mark (s : Logged B V W) (mark : Mark V) (f : Graph B V W → Graph B V W) :
    (s.step [mark] f).account = s.account.after mark := account_concat s.log mark

theorem account_change {c : CellId} (log : s'.log = s.log ++ [.changed c v ls]) :
    s'.account = s.account.after (.changed c v ls) := by
  rw [account, log]
  exact account_concat s.log _

theorem account_hear (top : s.account.layers = .round r :: layers) (pending : r.pending = l :: ls) :
    (s.step [.called l v] f).account =
      { s.account with layers := .call l :: .round { r with pending := ls } :: layers } := by
  rw [account_mark, Account.after, top, Layer.callNext, pending, List.erase_cons_head]

theorem account_skip (top : s.account.layers = .round r :: layers) (pending : r.pending = l :: ls) :
    (s.step [.called l v, .returned l] f).account =
      { s.account with layers := .round { r with pending := ls } :: layers } := by
  rw [account_step]
  simp only [List.foldl_cons, List.foldl_nil, Account.after, top, Layer.callNext, pending,
    List.erase_cons_head, List.tail_cons]

theorem account_rerun (top : s.account.layers = .round r :: layers)
    (pending : r.pending = l :: ls) : (s.step [.called l v, .reran e] f).account =
      { s.account with
        layers :=
          .run e [] :: .call l ::
            .round { r with pending := ls, ran := r.ran ++ [e] } :: layers } := by
  rw [account_step]
  simp only [List.foldl_cons, List.foldl_nil, Account.after, top, Layer.callNext, pending,
    List.erase_cons_head, Layer.rerun]

theorem running_rerun (top : s.account.layers = .round r :: layers)
    (pending : r.pending = l :: ls) :
    (s.step [.called l v, .reran e] f).account.running = e :: s.account.running := by
  rw [account_rerun top pending, running_of_none top rfl]
  rfl

theorem account_leave (top : s.account.layers = .call l :: layers) :
    (s.step [.returned l] f).account = { s.account with layers } := by
  rw [account_mark, Account.after, top, List.tail_cons]

theorem account_settle {c : CellId} (top : s.account.layers = .round r :: layers) :
    (s.step [.settled c] f).account = { s.account with layers } := by
  rw [account_mark, Account.after, top, List.tail_cons]

theorem account_suspend :
    s.suspend.account = { s.account with layers := .untracked :: s.account.layers } :=
  account_mark s _ _

theorem account_resume (top : s.account.layers = .untracked :: layers) :
    (s.step [.resumed] f).account = { s.account with layers } := by
  rw [account_mark, Account.after, top, List.tail_cons]

theorem account_subscribe (c : CellId) (body : B) : (s.subscribe c body).account =
    if c < s.graph.cells.length then { s.account with guards := s.account.guards ++
      [(c, s.graph.listeners.length)] }
    else s.account := by
  rw [subscribe, account_step]
  split <;> rfl

theorem account_finish {reads : List CellId} (top : s.account.layers = .run e reads :: layers) :
    (s.step [.ended e] f).account =
      { s.account with layers, latest := fun d => if d = e then reads
        else s.account.latest d } := by
  rw [account_mark, Account.after, top]

theorem account_dispose (s : Logged B V W) (e : EffectId) (f : Graph B V W → Graph B V W) :
    (s.step [.disposed e] f).account =
      { s.account with gone := if e < s.account.effects then e :: s.account.gone
        else s.account.gone } := by
  rw [account_mark, Account.after]
  split <;> rfl

theorem account_drop (s : Logged B V W) (e : EffectId) (f : Graph B V W → Graph B V W) :
    (s.step [.dropped e] f).account =
      { s.account with gone := if e < s.account.effects then e :: s.account.gone
        else s.account.gone } := by
  rw [account_mark, Account.after]
  split <;> rfl

end Account

/-! ### Moves -/

inductive Move (same : V → V → Bool) (keeps : W → ListenerId → Prop) (s : Logged B V W) :
    Logged B V W → Prop
  /-- The world, or what is reported, changes. -/
  | aside {f : Graph B V W → Graph B V W} (parts : s.graph.SameParts (f s.graph))
    (scopes : (f s.graph).scopes = s.graph.scopes)
    (kept : ∀ l, keeps (f s.graph).world l → s.graph.Plain l) {news : List (Option Span × Event V)}
    (history : (f s.graph).history = news ++ s.graph.history) (quiet : ∀ e ∈ news, e.2.IsQuiet) :
    Move same keeps s (s.step [] f)
  | create (v : V) : Move same keeps s (s.step [] fun g => (g.addCell v).2)
  | read {c : CellId} {z : Cell V} (hz : s.graph.cells[c]? = some z) : Move same keeps s
    (s.step [.read c] (·.track c))
  | change {c : CellId} {v : V} {z : Cell V} {ls : List ListenerId} {s' : Logged B V W}
    (hz : s.graph.cells[c]? = some z) (differs : same z.value v = false)
      (changed : s.change same c v = some (ls, s')) :
    Move same keeps s s'
  /-- A listener with a body of its own is called. -/
  | hear {r : Round V} {layers : List (Layer V)} {l : ListenerId} {ls : List ListenerId}
    {y : Listener B} {b : B}
    (top : s.account.layers = .round r :: layers) (pending : r.pending = l :: ls)
    (hy : s.graph.listeners[l]? = some y) (own : y.reaction = .call b) :
    Move same keeps s (s.step [.called l r.value] (·.record (.called l r.value)))
  /-- A listener of an effect is called that need not run. -/
  | skip {r : Round V} {layers : List (Layer V)} {l : ListenerId}
    {ls : List ListenerId} {y : Listener B}
    {e : EffectId} {epoch : Nat} {x : Effect B} {f : Graph B V W → Graph B V W}
    (top : s.account.layers = .round r :: layers) (pending : r.pending = l :: ls)
    (hy : s.graph.listeners[l]? = some y) (target : y.reaction = .rerun e epoch)
      (hx : s.graph.effects[e]? = some x)
    (idle : x.owned = false ∨ x.epoch ≠ epoch ∨ x.disposed = true ∨ x.running = true)
    (parts : s.graph.SameParts (f s.graph)) (scopes : (f s.graph).scopes = s.graph.scopes)
    (world : (f s.graph).world = s.graph.world) {news : List (Option Span × Event V)}
    (history : (f s.graph).history = news ++ (s.graph.record (.called l r.value)).history)
    (quiet : ∀ e ∈ news, e.2.IsQuiet) : Move same keeps s
      (s.step [.called l r.value, .returned l] f)
  /-- A listener of an effect is called, and the effect starts to run again. -/
  | rerun {r : Round V} {layers : List (Layer V)} {l : ListenerId}
    {ls : List ListenerId} {y : Listener B}
    {e : EffectId} {x : Effect B} (top : s.account.layers = .round r :: layers)
      (pending : r.pending = l :: ls)
    (hy : s.graph.listeners[l]? = some y) (target : y.reaction = .rerun e x.epoch)
      (hx : s.graph.effects[e]? = some x)
    (undisposed : x.disposed = false) (resting : x.running = false) :
    Move same keeps s (s.step [.called l r.value, .reran e] fun g =>
      (g.record (.called l r.value)).start e x)
  | leave {l : ListenerId} {layers : List (Layer V)} (top : s.account.layers = .call l :: layers) :
    Move same keeps s (s.step [.returned l] id)
  | settle {r : Round V} {layers : List (Layer V)} (top : s.account.layers = .round r :: layers)
    (done : r.pending = []) : Move same keeps s
      (s.step [.settled r.cell] (r.captured.foldl Graph.unpin))
  | suspend : Move same keeps s s.suspend
  | resume {layers : List (Layer V)} (top : s.account.layers = .untracked :: layers) :
    Move same keeps s (s.step [.resumed] Graph.pop)
  | subscribe (c : CellId) (body : B) : Move same keeps s (s.subscribe c body)
  | release {l : ListenerId} (plain : s.graph.Plain l) : Move same keeps s
    (s.step [.released l] (·.release l))
  | spawn (body : B) : Move same keeps s (s.step [.spawned s.graph.effects.length] fun g =>
      (g.addEffect body).2.start g.effects.length { body := body })
  | finish {e : EffectId} {reads : List CellId} {layers : List (Layer V)}
    (top : s.account.layers = .run e reads :: layers) : Move same keeps s
      (s.step [.ended e] (·.finish e))
  | dispose (e : EffectId) : Move same keeps s (s.step [.disposed e] (·.dispose e))
  | drop (e : EffectId) : Move same keeps s (s.step [.dropped e] (·.drop e))

abbrev Moves (same : V → V → Bool) (keeps : W → ListenerId → Prop) : Logged B V W → Logged B V W →
    Prop :=
  Relation.ReflTransGen (Move same keeps)

/-- What every move keeps is kept by any number of moves. -/
theorem Moves.keep {Keeps : Logged B V W → Prop}
    (step : ∀ {s s' : Logged B V W}, Move same keeps s s' → Keeps s → Keeps s')
    {s s' : Logged B V W} (moves : Moves same keeps s s') (h : Keeps s) : Keeps s' := by
  induction moves with
  | refl => exact h
  | tail _ move ih => exact step move ih

variable {s s' s'' : Logged B V W}

theorem of_change {c : CellId} {v : V} {z : Cell V} {ls : List ListenerId}
    (hz : s.graph.cells[c]? = some z) (differs : same z.value v = false)
    (changed : s.change same c v = some (ls, s')) :
    ls = s.graph.liveSlots c ∧ s'.log = s.log ++ [.changed c v ls] ∧
      (s.graph.withCell c ⟨v, z.version + 1, ls⟩).Alike s'.graph := by
  obtain ⟨g', assigned, alike⟩ := Graph.assign_changed hz differs
  obtain ⟨r, assigned', heq⟩ := Option.map_eq_some_iff.1 changed
  obtain rfl := Option.some.inj (assigned.symm.trans assigned')
  obtain ⟨rfl, rfl⟩ := Prod.mk.inj heq
  exact ⟨rfl, rfl, alike⟩

namespace Move

theorem lasting (h : Move same keeps s s') : s.graph.Lasting s'.graph := by
  cases h with
  | aside parts => exact Graph.Lasting.of_eq parts.listeners
  | create v => exact Graph.Lasting.of_eq rfl
  | read hz => exact Graph.Lasting.of_eq (s.graph.track_listeners _)
  | change hz differs changed => exact (of_change hz differs changed).2.2.steady.reaction
  | hear => exact Graph.Lasting.of_eq rfl
  | skip top pending hy target hx idle parts => exact Graph.Lasting.of_eq parts.listeners
  | @rerun r _ l _ _ e x =>
    exact (Graph.Steady.start (s.graph.record (.called l r.value)) e x).reaction
  | leave => exact Graph.Lasting.of_eq rfl
  | settle => exact (Graph.Alike.foldl Graph.Alike.unpin _ _).steady.reaction
  | suspend => exact Graph.Lasting.of_eq rfl
  | resume => exact Graph.Lasting.of_eq rfl
  | subscribe c body => exact (Graph.Steady.subscribe _ c _).reaction
  | release plain => exact (Graph.Steady.releaseAll _ [_]).reaction
  | spawn body => exact (Graph.Steady.start (s.graph.addEffect body).2 _ _).reaction
  | finish => exact (Graph.Spares.finish s.graph _).lasting
  | dispose e => exact (Graph.Steady.dispose s.graph e).reaction
  | drop e => exact (Graph.Steady.drop s.graph e).reaction

theorem grows (move : Move same keeps s s') :
    s.graph.listeners.length ≤ s'.graph.listeners.length := by
  refine Nat.le_of_not_lt fun hlt => ?_
  obtain ⟨y, hy, -⟩ := move.lasting (List.getElem?_eq_getElem hlt)
  exact Nat.lt_irrefl _ (List.getElem?_eq_some_iff.1 hy).1

end Move

def Kept (keeps : W → ListenerId → Prop) (s : Logged B V W) : Prop :=
  ∀ l, keeps s.graph.world l → s.graph.Plain l

theorem Kept.of_world (h : s.Kept keeps) (lasting : s.graph.Lasting s'.graph)
    (world : s'.graph.world = s.graph.world) : s'.Kept keeps :=
  fun l hk => (h l (world ▸ hk)).lasting lasting

theorem finish_world (g : Graph B V W) (e : EffectId) : (g.finish e).world = g.world := by
  cases hx : g.effects[e]? with
  | none => simp [Graph.finish, hx]
  | some x =>
    cases hd : x.disposed with
    | true => simp [Graph.finish, hx, hd]
    | false => exact Graph.finish_world hx hd

theorem Move.kept (h : Move same keeps s s') (k : s.Kept keeps) : s'.Kept keeps := by
  have lasting : s.graph.Lasting s'.graph := h.lasting
  cases h with
  | aside parts scopes kept => exact fun l hk => (kept l hk).lasting lasting
  | create v => exact k.of_world lasting rfl
  | read hz => exact k.of_world lasting (s.graph.track_world _)
  | change hz differs changed => exact k.of_world lasting (of_change hz differs changed).2.2.world
  | hear => exact k.of_world lasting rfl
  | skip top pending hy target hx idle parts scopes world => exact k.of_world lasting world
  | rerun => exact k.of_world lasting Graph.start_world
  | leave => exact k.of_world lasting rfl
  | settle => exact k.of_world lasting (Graph.Alike.foldl Graph.Alike.unpin _ _).world
  | suspend => exact k.of_world lasting rfl
  | resume => exact k.of_world lasting rfl
  | subscribe c body => exact k.of_world lasting rfl
  | release plain => exact k.of_world lasting rfl
  | spawn body => exact k.of_world lasting Graph.start_world
  | finish => exact k.of_world lasting (finish_world s.graph _)
  | dispose e => exact k.of_world lasting Graph.dispose_world
  | drop e => exact k.of_world lasting Graph.drop_world

theorem Moves.lasting (h : Moves same keeps s s') : s.graph.Lasting s'.graph := by
  induction h with
  | refl => exact Graph.Lasting.of_eq rfl
  | tail _ move ih => exact Graph.Lasting.trans ih move.lasting

/-! ### Runs are sequences of moves -/

/-- A piece of a run, from its beginning to its end: what was under way is under way. -/
structure Completes (same : V → V → Bool) (keeps : W → ListenerId → Prop) (s s' : Logged B V W) :
    Prop where
  moves : Moves same keeps s s'
  shape : s'.account.shape = s.account.shape

namespace Completes

theorem refl (s : Logged B V W) : Completes same keeps s s := ⟨.refl, rfl⟩

theorem trans (h : Completes same keeps s s') (h' : Completes same keeps s' s'') :
    Completes same keeps s s'' :=
  ⟨h.moves.trans h'.moves, h'.shape.trans h.shape⟩

theorem of_move (move : Move same keeps s s') (shape : s'.account.shape = s.account.shape) :
    Completes same keeps s s' :=
  ⟨.single move, shape⟩

theorem kept (h : Completes same keeps s s') (k : s.Kept keeps) : s'.Kept keeps :=
  h.moves.keep Move.kept k

theorem plain (h : Completes same keeps s s') {own : ListenerId → Prop}
    (plain : ∀ {l : ListenerId}, own l → s.graph.Plain l) {l : ListenerId} (hl : own l) :
    s'.graph.Plain l :=
  (plain hl).lasting h.moves.lasting

/-- A move that changes nothing about what is under way. -/
theorem step {marks : List (Mark V)} {f : Graph B V W → Graph B V W}
    (move : Move same keeps s (s.step marks f))
    (shape : (marks.foldl Account.after s.account).shape = s.account.shape) :
    Completes same keeps s (s.step marks f) :=
  .of_move move (by rw [account_step, shape])

end Completes

structure Calls (same : V → V → Bool) (keeps : W → ListenerId → Prop) (r : Round V)
    (ls : List ListenerId) (s s' : Logged B V W) : Prop where
  moves : Moves same keeps s s'
  shape : s'.account.shape = (Layer.round { r with pending := ls }).shape :: s.account.shape.tail

def Served (same : V → V → Bool) (keeps : W → ListenerId → Prop) (task : Task B V)
    (s s' : Logged B V W) : Prop :=
  match task with
  | .call l v =>
      ∀ {r : Round V} {layers : List (Layer V)} {ls : List ListenerId},
        s.account.layers = .round r :: layers →
      r.pending = l :: ls → r.value = v → Calls same keeps r ls s s'
  | .effect e => ∀ {s₀ : Logged B V W} {body : B}, s = s₀.step [] (fun g => (g.addEffect body).2) →
      e = s₀.graph.effects.length → Completes same keeps s₀ s'
  | .untracked _ => Completes same keeps s s'

def Serves (same : V → V → Bool) (keeps : W → ListenerId → Prop) (perform : Logger B V W) : Prop :=
  ∀ {task : Task B V} {s s' : Logged B V W}, perform task s = some s' → s.Kept keeps →
    Served same keeps task s s'

variable {perform : Logger B V W} {m : Meaning B V W}

/-- An announcement calls what it has captured, one after the other. -/
theorem Serves.announce (h : Serves same keeps perform) {v : V} {ls : List ListenerId} {r : Round V}
    {layers : List (Layer V)} (announced : announceLogged perform v ls s = some s')
    (k : s.Kept keeps) (top : s.account.layers = .round r :: layers) (pending : r.pending = ls)
    (value : r.value = v) : Calls same keeps r [] s s' := by
  induction ls generalizing s r layers with
  | nil =>
    obtain rfl := Option.some.inj announced
    refine ⟨.refl, ?_⟩
    rw [← pending, Account.shape, top]
    rfl
  | cons l ls ih =>
    obtain ⟨s₁, called, rest⟩ := Option.bind_eq_some_iff.1 announced
    have first : Calls same keeps r ls s s₁ := h called k top pending value
    obtain ⟨layer, layers₁, top₁, shape, -⟩ := List.map_eq_cons_iff.1 first.shape
    obtain ⟨ran, calm, rfl⟩ := Layer.shape_eq_round shape
    have others := ih rest (first.moves.keep Move.kept k) top₁ rfl value
    refine ⟨first.moves.trans others.moves, others.shape.trans ?_⟩
    rw [first.shape]
    rfl

theorem Serves.write (h : Serves same keeps perform) {c : CellId} {v : V} {z : Cell V}
    {ls : List ListenerId} (hz : s.graph.cells[c]? = some z) (differs : same z.value v = false)
    (changed : s.change same c v = some (ls, s'))
    (announced : announceLogged perform v ls s' = some s'') (k : s.Kept keeps) :
    Completes same keeps s (s''.step [.settled c] (ls.foldl Graph.unpin)) := by
  have move : Move same keeps s s' := .change hz differs changed
  have account : s'.account = s.account.after (.changed c v ls) := by
    rw [Logged.account, (of_change hz differs changed).2.1, account_concat]
    rfl
  have told := h.announce announced (move.kept k) (by rw [account, Account.after]) rfl rfl
  obtain ⟨layer, layers, top, shape, rest⟩ := List.map_eq_cons_iff.1 told.shape
  obtain ⟨ran, calm, rfl⟩ := Layer.shape_eq_round shape
  refine ⟨.tail (.trans (.single move) told.moves) (.settle top rfl), ?_⟩
  rw [account_step, Account.shape, List.foldl_cons, List.foldl_nil, Account.after, top,
    List.tail_cons, rest, account]
  exact Layer.map_shape_stir _

/-- Whatever an honest program does is done in moves. -/
theorem Serves.program (h : Serves same keeps perform) {p : Program B V W α}
    {own : ListenerId → Prop} {r : α × Logged B V W} (honest : p.Honest keeps own)
    (ran : p.log same perform s = some r) (k : s.Kept keeps)
    (plain : ∀ {l : ListenerId}, own l → s.graph.Plain l) : Completes same keeps s r.2 := by
  -- On the program; `own` grows with each listener that it attaches, and what is its own it may
  -- release.
  induction p generalizing s own with
  | done a =>
    obtain rfl := Option.some.inj ran
    exact .refl s
  | create v next ih =>
    have created : Completes same keeps s (s.step [] fun g => (g.addCell v).2) :=
      .step (.create v) rfl
    exact created.trans (ih _ (honest _) ran (created.kept k) (created.plain plain))
  | read c next ih =>
    obtain ⟨z, hz, ran⟩ := Option.bind_eq_some_iff.1 ran
    have read : Completes same keeps s (s.step [.read c] (·.track c)) :=
      .step (.read hz) (Layer.map_shape_credit c _)
    exact read.trans (ih _ (honest _) ran (read.kept k) (read.plain plain))
  | inspect c next ih =>
    obtain ⟨x, -, ran⟩ := Option.bind_eq_some_iff.1 ran
    exact ih _ (honest _) ran k plain
  | write c v next ih =>
    obtain ⟨z, hz, ran⟩ := Option.bind_eq_some_iff.1 ran
    by_cases hs : same z.value v = true
    · rw [if_pos hs] at ran
      exact ih honest ran k plain
    · rw [if_neg hs] at ran
      obtain ⟨⟨ls, s₁⟩, changed, ran⟩ := Option.bind_eq_some_iff.1 ran
      obtain ⟨s₂, announced, ran⟩ := Option.bind_eq_some_iff.1 ran
      have written := h.write hz (Bool.eq_false_iff.2 hs) changed announced k
      exact written.trans (ih honest ran (written.kept k) (written.plain plain))
  | untracked body next ih =>
    obtain ⟨s₁, done, ran⟩ := Option.bind_eq_some_iff.1 ran
    have completed : Completes same keeps s s₁ := h done k
    exact completed.trans (ih honest ran (completed.kept k) (completed.plain plain))
  | subscribe c reaction next ih =>
    have attached : Completes same keeps s (s.subscribe c reaction) := by
      refine .step (.subscribe c reaction) ?_
      split <;> rfl
    refine attached.trans (ih _ (honest _) ran (attached.kept k) fun hl => ?_)
    rcases hl with rfl | hl
    · exact ⟨_, reaction, Graph.subscribe_listener_new c _, rfl⟩
    · exact attached.plain plain hl
  | release l next ih =>
    have released : Completes same keeps s (s.step [.released l] (·.release l)) :=
      .step (.release (plain honest.1)) rfl
    exact released.trans (ih honest.2 ran (released.kept k) (released.plain plain))
  | spawn body next ih =>
    obtain ⟨s₁, done, ran⟩ := Option.bind_eq_some_iff.1 ran
    have spawned : Completes same keeps s s₁ :=
      h done (k.of_world (Graph.Lasting.of_eq rfl) rfl) rfl rfl
    exact spawned.trans (ih _ (honest _) ran (spawned.kept k) (spawned.plain plain))
  | dispose e next ih =>
    have disposed : Completes same keeps s (s.step [.disposed e] (·.dispose e)) :=
      .step (.dispose e) (by rw [List.foldl_cons, List.foldl_nil, Account.after]; split <;> rfl)
    exact disposed.trans (ih honest ran (disposed.kept k) (disposed.plain plain))
  | drop e next ih =>
    have dropped : Completes same keeps s (s.step [.dropped e] (·.drop e)) :=
      .step (.drop e) (by rw [List.foldl_cons, List.foldl_nil, Account.after]; split <;> rfl)
    exact dropped.trans (ih honest ran (dropped.kept k) (dropped.plain plain))
  | examine e next ih =>
    obtain ⟨x, -, ran⟩ := Option.bind_eq_some_iff.1 ran
    exact ih _ (honest _) ran k plain
  | ask next ih => exact ih _ (honest _) ran k fun hl => hl.elim (k _) plain
  | change f next ih =>
    have changed : Completes same keeps s (s.step [] fun g => g.withWorld (f g.world)) :=
      .step (.aside ⟨rfl, rfl, rfl⟩ rfl (fun l hk => (honest.1 _ _ hk).elim (k l) plain)
        (List.nil_append _).symm nofun) rfl
    exact changed.trans (ih honest.2 ran (changed.kept k) (changed.plain plain))
  | report n next ih =>
    have reported : Completes same keeps s (s.step [] (·.record (.noted n))) :=
      .step (.aside ⟨rfl, rfl, rfl⟩ rfl k (List.singleton_append).symm
        (List.forall_mem_singleton.2 trivial)) rfl
    exact reported.trans (ih honest ran (reported.kept k) (reported.plain plain))
  | within span next ih =>
    have within : Completes same keeps s (s.step [] (·.withSpan span)) :=
      .step (.aside ⟨rfl, rfl, rfl⟩ rfl k (List.nil_append _).symm nofun) rfl
    exact within.trans (ih honest ran (within.kept k) (within.plain plain))

theorem Serves.alone (h : Serves same keeps perform) {p : Program B V W α} {r : α × Logged B V W}
    (honest : p.HonestAlone keeps) (ran : p.log same perform s = some r) (k : s.Kept keeps) :
    Completes same keeps s r.2 :=
  h.program honest ran k False.elim

theorem Serves.finish (h : Serves m.same keeps perform) (honest : m.Honest keeps)
    {s₀ : Logged B V W} {b : B} {e : EffectId} {layers : List (Layer V)} {r : Unit × Logged B V W}
    (started : Move m.same keeps s₀ s) (top : s.account.shape = .run e [] :: layers)
    (ran : (m.body b).log m.same perform s = some r) (k : s₀.Kept keeps) :
    Moves m.same keeps s₀ (r.2.step [.ended e] (·.finish e)) ∧
      (r.2.step [.ended e] (·.finish e)).account.shape = layers := by
  have body := h.alone (honest.body b) ran (started.kept k)
  obtain ⟨layer, rest, top', shape, tail⟩ := List.map_eq_cons_iff.1 (body.shape.trans top)
  obtain ⟨reads, rfl⟩ := Layer.shape_eq_run shape
  refine ⟨.tail (.trans (.single started) body.moves) (.finish top'), ?_⟩
  rw [account_step, List.foldl_cons, List.foldl_nil, Account.after, top']
  exact tail

theorem Serves.spawn (h : Serves m.same keeps perform) (honest : m.Honest keeps) {b : B}
    (ran : rerunLogged m perform (.spawned s.graph.effects.length) s.graph.effects.length
      (s.step [] fun g => (g.addEffect b).2) = some s') (k : s.Kept keeps) :
      Completes m.same keeps s s' := by
  obtain ⟨x, hx, ran⟩ := Option.bind_eq_some_iff.1 ran
  have new : x = { body := b } := by
    simp only [step, Graph.addEffect, List.getElem?_concat_length] at hx
    exact (Option.some.inj hx).symm
  subst new
  obtain ⟨r, done, rfl⟩ := Option.map_eq_some_iff.1 ran
  rw [step_step] at done
  obtain ⟨moves, shape⟩ := h.finish honest (.spawn b) (by rw [account_step]; rfl) done k
  exact ⟨moves, shape⟩

section Call
variable {l : ListenerId} {r : Round V} {layers : List (Layer V)} {ls : List ListenerId}

/-- A call ends with its return, after whatever it has led to. -/
theorem Calls.leave (top : s.account.layers = .round r :: layers) (moves : Moves same keeps s s')
    (shape : s'.account.shape = .call l :: (Layer.round { r with pending := ls }).shape ::
      layers.map Layer.shape) :
    Calls same keeps r ls s (s'.step [.returned l] id) := by
  obtain ⟨call, rest, top', shape', tail⟩ := List.map_eq_cons_iff.1 shape
  obtain rfl := Layer.shape_eq_call shape'
  refine ⟨.tail moves (.leave top'), ?_⟩
  rw [account_step, List.foldl_cons, List.foldl_nil, Account.after, Account.shape, top',
    List.tail_cons, tail, Account.shape, top]
  rfl

/-- A call for an effect that does not run again leads to nothing. -/
theorem Calls.skip {y : Listener B} {x : Effect B} {e : EffectId} {epoch : Nat}
    {f : Graph B V W → Graph B V W} (top : s.account.layers = .round r :: layers)
    (pending : r.pending = l :: ls) (hy : s.graph.listeners[l]? = some y)
    (target : y.reaction = .rerun e epoch) (hx : s.graph.effects[e]? = some x)
    (idle : x.owned = false ∨ x.epoch ≠ epoch ∨ x.disposed = true ∨ x.running = true)
    (parts : s.graph.SameParts (f s.graph)) (scopes : (f s.graph).scopes = s.graph.scopes)
    (world : (f s.graph).world = s.graph.world) {news : List (Option Span × Event V)}
    (history : (f s.graph).history = news ++ (s.graph.record (.called l r.value)).history)
    (quiet : ∀ e ∈ news, e.2.IsQuiet) :
    Calls same keeps r ls s (s.step [.called l r.value, .returned l] f) := by
  refine ⟨.single (.skip top pending hy target hx idle parts scopes world history quiet), ?_⟩
  have left : s.account.shape.tail = layers.map Layer.shape := by rw [Account.shape, top]; rfl
  rw [account_skip top pending, left]
  rfl

end Call

/-- A listener is called by the innermost announcement. -/
theorem Serves.call (h : Serves m.same keeps perform) (honest : m.Honest keeps) {l : ListenerId}
    {y : Listener B} {r : Round V} {layers : List (Layer V)} {ls : List ListenerId}
    (hy : s.graph.listeners[l]? = some y)
    (ran : reactLogged m perform r.value (s.step [.called l r.value] (·.record (.called l r.value)))
      y.reaction = some s')
    (k : s.Kept keeps) (top : s.account.layers = .round r :: layers)
    (pending : r.pending = l :: ls) : Calls m.same keeps r ls s (s'.step [.returned l] id) := by
  cases hr : y.reaction with
  | call b =>
    rw [hr] at ran
    obtain ⟨a, done, rfl⟩ := Option.map_eq_some_iff.1 ran
    have move : Move m.same keeps s (s.step [.called l r.value] (·.record (.called l r.value))) :=
      .hear top pending hy hr
    have body := h.alone (honest.reaction b r.value) done (move.kept k)
    refine .leave top (.trans (.single move) body.moves) ?_
    rw [body.shape, account_hear top pending]
    rfl
  | rerun e epoch =>
    rw [hr] at ran
    obtain ⟨x, hx, ran⟩ := Option.bind_eq_some_iff.1 ran
    split at ran
    · rename_i unowned
      obtain rfl := Option.some.inj ran
      rw [step_step]
      refine .skip top pending hy hr hx (.inl ?_) ⟨rfl, rfl, rfl⟩ rfl rfl
        (List.nil_append _).symm nofun
      simpa using (by simpa using unowned : x.owned = false ∧ x.running = false).1
    · split at ran
      · rename_i stale
        obtain rfl := Option.some.inj ran
        rw [step_step, step_step]
        exact .skip top pending hy hr hx (.inr (.inl stale)) ⟨rfl, rfl, rfl⟩ rfl rfl
          (List.singleton_append).symm (List.forall_mem_singleton.2 trivial)
      · rename_i current
        obtain ⟨x', hx', ran⟩ := Option.bind_eq_some_iff.1 ran
        obtain rfl := Option.some.inj (hx.symm.trans hx')
        split at ran
        · rename_i idle
          obtain rfl := Option.some.inj ran
          rw [step_step]
          exact .skip top pending hy hr hx (.inr (.inr (by simpa using idle)))
            ⟨rfl, rfl, rfl⟩ rfl rfl (List.nil_append _).symm nofun
        · rename_i ready
          obtain ⟨a, done, rfl⟩ := Option.map_eq_some_iff.1 ran
          rw [step_step] at done
          obtain ⟨undisposed, resting⟩ : x.disposed = false ∧ x.running = false := by
            simpa using ready
          obtain rfl : x.epoch = epoch := Decidable.not_not.1 current
          have move : Move m.same keeps s (s.step [.called l r.value, .reran e] fun g =>
              (g.record (.called l r.value)).start e x) :=
                .rerun top pending hy hr hx undisposed resting
          have under : (s.step [.called l r.value, .reran e] fun g =>
              (g.record (.called l r.value)).start e x).account.shape =
              .run e [] :: .call l :: (Layer.round { r with pending := ls }).shape ::
                layers.map Layer.shape := by
            rw [account_rerun top pending]
            rfl
          obtain ⟨moves, shape⟩ := h.finish honest move under done k
          exact .leave top moves shape

theorem serves_performLogged (honest : m.Honest keeps) (depth : Nat) :
    Serves m.same keeps (performLogged m depth) := by
  induction depth with
  | zero =>
    intro task s s' ran
    cases ran
  | succ depth ih =>
    intro task s s' ran k
    cases task with
    | call l v =>
      obtain ⟨y, hy, ran⟩ := Option.bind_eq_some_iff.1 ran
      obtain ⟨s₁, reacted, rfl⟩ := Option.map_eq_some_iff.1 ran
      intro r layers ls top pending value
      subst value
      exact ih.call honest hy reacted k top pending
    | effect e =>
      intro s₀ body hs he
      subst hs he
      have kept : s₀.Kept keeps := k.of_world (Graph.Lasting.of_eq rfl) rfl
      exact ih.spawn honest ran kept
    | untracked body =>
      obtain ⟨r, done, rfl⟩ := Option.map_eq_some_iff.1 ran
      have suspended : Move m.same keeps s s.suspend := .suspend
      have inside := ih.alone (honest.body body) done (suspended.kept k)
      have shape : r.2.account.shape = .untracked :: s.account.shape := by
        rw [inside.shape, suspend, account_step]
        rfl
      obtain ⟨layer, layers, top, untracked, tail⟩ := List.map_eq_cons_iff.1 shape
      obtain rfl := Layer.shape_eq_untracked untracked
      refine ⟨.tail (.trans (.single suspended) inside.moves) (.resume top), ?_⟩
      rw [account_step, List.foldl_cons, List.foldl_nil, Account.after, Account.shape, top,
        List.tail_cons, tail]

/-- Programs that are run from outside one after the other are sequences of moves. What they have at
hand has been attached by itself. -/
theorem completes_logAll (honest : m.Honest keeps) {own : ListenerId → Prop}
    {calls : List (Nat × Program B V W Unit)} (owned : ∀ call ∈ calls, call.2.Honest keeps own)
    (plain : ∀ {l : ListenerId}, own l → s.graph.Plain l) (ran : logAll m calls s = some s')
    (k : s.Kept keeps) : Completes m.same keeps s s' := by
  induction calls generalizing s with
  | nil =>
    obtain rfl := Option.some.inj ran
    exact .refl s
  | cons call calls ih =>
    obtain ⟨hp, others⟩ := List.forall_mem_cons.1 owned
    obtain ⟨r, done, ran⟩ := Option.bind_eq_some_iff.1 ran
    have first := Serves.program (serves_performLogged honest call.1) hp done k plain
    exact first.trans (ih others (first.plain plain) ran (first.kept k))

end Logged
end StoryPreview.Reactive
