import StoryPreview.Proofs.Reactive.Log
import StoryPreview.Proofs.Reactive.Tracing
/-!
Runs that keep a log. The log is kept beside the state, and nothing depends on it: without the log a
run is what it was.
-/
namespace StoryPreview.Reactive
variable {B V W α : Type}

structure Logged (B V W : Type) where
  graph : Graph B V W
  log : List (Mark V) := []

namespace Logged

def step (s : Logged B V W) (marks : List (Mark V)) (f : Graph B V W → Graph B V W) :
    Logged B V W :=
  ⟨f s.graph, s.log ++ marks⟩

def change (s : Logged B V W) (same : V → V → Bool) (c : CellId)
    (v : V) : Option (List ListenerId × Logged B V W) :=
  (s.graph.assign same c v).map fun r => (r.1, ⟨r.2, s.log ++ [.changed c v r.1]⟩)

def subscribe (s : Logged B V W) (c : CellId) (body : B) : Logged B V W :=
  s.step (if c < s.graph.cells.length then [.subscribed c s.graph.listeners.length] else [])
    fun g => (g.subscribe c (.call body)).2

def suspend (s : Logged B V W) : Logged B V W :=
  s.step [.suspended] fun g => { g with scopes := .untracked :: g.scopes }

def account (s : Logged B V W) : Account V := Reactive.account s.log

end Logged

abbrev Logger (B V W : Type) := Task B V → Logged B V W → Option (Logged B V W)

def announceLogged (perform : Logger B V W) (v : V) :
    List ListenerId → Logged B V W → Option (Logged B V W)
  | [], s => some s
  | l :: ls, s => (perform (.call l v) s).bind (announceLogged perform v ls)

def Program.log (same : V → V → Bool) (perform : Logger B V W) :
    Program B V W α → Logged B V W → Option (α × Logged B V W)
  | .done a, s => some (a, s)
  | .create v next, s => (next s.graph.cells.length).log same perform (s.step [] fun g =>
    (g.addCell v).2)
  | .read c next, s =>
    s.graph.cells[c]?.bind fun x => (next x.value).log same perform (s.step [.read c] (·.track c))
  | .inspect c next, s => (s.graph.cellView? c).bind fun x => (next x).log same perform s
  | .write c v next, s =>
    s.graph.cells[c]?.bind fun x =>
      if same x.value v then next.log same perform s
      else (s.change same c v).bind fun r =>
        (announceLogged perform v r.1 r.2).bind fun s =>
          next.log same perform (s.step [.settled c] (r.1.foldl Graph.unpin))
  | .untracked body next, s => (perform (.untracked body) s).bind (next.log same perform)
  | .subscribe c reaction next, s =>
    (next s.graph.listeners.length).log same perform (s.subscribe c reaction)
  | .release l next, s => next.log same perform (s.step [.released l] (·.release l))
  | .spawn body next, s =>
    (perform (.effect s.graph.effects.length) (s.step [] fun g => (g.addEffect body).2)).bind
      ((next s.graph.effects.length).log same perform)
  | .dispose e next, s => next.log same perform (s.step [.disposed e] (·.dispose e))
  | .drop e next, s => next.log same perform (s.step [.dropped e] (·.drop e))
  | .examine e next, s => (s.graph.effectView? e).bind fun x => (next x).log same perform s
  | .ask next, s => (next s.graph.world).log same perform s
  | .change f next, s => next.log same perform (s.step [] fun g => g.withWorld (f g.world))
  | .report n next, s => next.log same perform (s.step [] (·.record (.noted n)))
  | .within span next, s => next.log same perform (s.step [] (·.withSpan span))

def rerunLogged (m : Meaning B V W) (perform : Logger B V W) (mark : Mark V) (e : EffectId)
    (s : Logged B V W) : Option (Logged B V W) :=
  s.graph.effects[e]?.bind fun x =>
    if x.disposed || x.running then some s
    else ((m.body x.body).log m.same perform (s.step [mark] (·.start e x))).map fun r =>
      r.2.step [.ended e] (·.finish e)

def reactLogged (m : Meaning B V W) (perform : Logger B V W) (v : V) (s : Logged B V W) :
    Reaction B → Option (Logged B V W)
  | .call body => ((m.reaction body v).log m.same perform s).map Prod.snd
  | .rerun e epoch =>
    s.graph.effects[e]?.bind fun x =>
      if !(x.owned || x.running) then some s
      else if x.epoch ≠ epoch then some (s.step [] (·.record (.stale e epoch x.epoch)))
      else rerunLogged m perform (.reran e) e s

def performLogged (m : Meaning B V W) : Nat → Logger B V W
  | 0 => fun _ _ => none
  | depth + 1 => fun task s =>
    match task with
    | .call l v =>
      s.graph.listeners[l]?.bind fun y =>
        (reactLogged m (performLogged m depth) v
          (s.step [.called l v] (·.record (.called l v))) y.reaction).map
          fun s => s.step [.returned l] id
    | .effect e => rerunLogged m (performLogged m depth) (.spawned e) e s
    | .untracked body =>
      ((m.body body).log m.same (performLogged m depth) s.suspend).map fun r =>
        r.2.step [.resumed] Graph.pop

def logAll (m : Meaning B V W) : List (Nat × Program B V W Unit) → Logged B V W →
    Option (Logged B V W)
  | [], s => some s
  | (depth, p) :: calls, s =>
    (p.log m.same (performLogged m depth) s).bind fun r => logAll m calls r.2

/-! ### Without the log -/

namespace Logged

def Erases (perform : Logger B V W) (doer : Doer B V W) : Prop :=
  ∀ task s, (perform task s).map graph = doer task s.graph

variable {perform : Logger B V W} {doer : Doer B V W}

theorem Erases.bind {β : Type} (h : Erases perform doer) (task : Task B V) (s : Logged B V W)
    {f : Logged B V W → Option β} {f' : Graph B V W → Option β} (hf : ∀ s, f s = f' s.graph) :
    (perform task s).bind f = (doer task s.graph).bind f' := by
  rw [← h task s, Option.bind_map]
  exact Option.bind_congr fun s' _ => hf s'

theorem Erases.announce (h : Erases perform doer) (v : V) (ls : List ListenerId)
    (s : Logged B V W) :
    (announceLogged perform v ls s).map graph = Reactive.announce doer v ls s.graph := by
  induction ls generalizing s with
  | nil => rfl
  | cons l ls ih =>
    rw [announceLogged, Option.map_bind, Reactive.announce]
    exact h.bind _ s ih

def unlogged (r : α × Logged B V W) : α × Graph B V W := (r.1, r.2.graph)

theorem Erases.program (same : V → V → Bool) (h : Erases perform doer) (p : Program B V W α)
    (s : Logged B V W) : (p.log same perform s).map unlogged = p.run same doer s.graph := by
  induction p generalizing s with
  | done a => rfl
  | create v next ih => exact ih _ _
  | read c next ih =>
    rw [Program.log, Option.map_bind, Program.run]
    exact Option.bind_congr fun x _ => ih _ _
  | inspect c next ih =>
    rw [Program.log, Option.map_bind, Program.run]
    exact Option.bind_congr fun x _ => ih _ _
  | write c v next ih =>
    rw [Program.log, Option.map_bind, Program.run]
    cases hx : s.graph.cells[c]? with
    | none => simp [Graph.assign, hx]
    | some x =>
      simp only [Option.bind_some, Function.comp_apply]
      by_cases hs : same x.value v = true
      · simp only [hs, if_true, Graph.assign_same hx hs, Option.bind_some, Reactive.announce,
          List.foldl_nil]
        exact ih s
      · rw [if_neg hs, change, Option.bind_map, Option.map_bind]
        refine Option.bind_congr fun r _ => ?_
        simp only [Function.comp_apply]
        rw [Option.map_bind, ← h.announce v r.1 ⟨r.2, s.log ++ [.changed c v r.1]⟩, Option.bind_map]
        exact Option.bind_congr fun s' _ => ih _
  | untracked body next ih =>
    rw [Program.log, Option.map_bind, Program.run]
    exact h.bind _ s ih
  | subscribe c reaction next ih => exact ih _ _
  | release l next ih => exact ih _
  | spawn body next ih =>
    rw [Program.log, Option.map_bind, Program.run]
    exact h.bind _ (s.step [] fun g => (g.addEffect body).2) (ih _)
  | dispose e next ih => exact ih _
  | drop e next ih => exact ih _
  | examine e next ih =>
    rw [Program.log, Option.map_bind, Program.run]
    exact Option.bind_congr fun x _ => ih _ _
  | ask next ih => exact ih _ _
  | change f next ih => exact ih _
  | report n next ih => exact ih _
  | within span next ih => exact ih _

variable {m : Meaning B V W}

theorem Erases.rerun (h : Erases perform doer) (mark : Mark V) (e : EffectId) (s : Logged B V W) :
    (rerunLogged m perform mark e s).map graph = Reactive.rerun m doer e s.graph := by
  rw [rerunLogged, Option.map_bind, Reactive.rerun]
  refine Option.bind_congr fun x _ => ?_
  simp only [Function.comp_apply]
  split
  · rfl
  · have ran := h.program m.same (m.body x.body) (s.step [mark] (·.start e x))
    rw [show (s.step [mark] (·.start e x)).graph = s.graph.start e x from rfl] at ran
    rw [← ran, Option.map_map, Option.map_map]
    rfl

theorem Erases.react (h : Erases perform doer) (v : V) (s : Logged B V W) (r : Reaction B) :
    (reactLogged m perform v s r).map graph = Reactive.react m doer v s.graph r := by
  cases r with
  | call body =>
    rw [reactLogged, Reactive.react, ← h.program m.same, Option.map_map, Option.map_map]
    rfl
  | rerun e epoch =>
    rw [reactLogged, Option.map_bind, Reactive.react]
    refine Option.bind_congr fun x _ => ?_
    simp only [Function.comp_apply]
    split
    · rfl
    · split
      · rfl
      · exact h.rerun (.reran e) e s

theorem erases_performLogged (m : Meaning B V W) (depth : Nat) :
    Erases (performLogged m depth) (Reactive.perform m depth) := by
  induction depth with
  | zero => exact fun _ _ => rfl
  | succ depth ih =>
    intro task s
    cases task with
    | call l v =>
      rw [performLogged, Option.map_bind, Reactive.perform]
      refine Option.bind_congr fun y _ => ?_
      rw [Function.comp_apply, Option.map_map]
      exact ih.react v _ y.reaction
    | effect e => exact ih.rerun (.spawned e) e s
    | untracked body =>
      have ran := ih.program m.same (m.body body) s.suspend
      rw [show s.suspend.graph = { s.graph with scopes := .untracked :: s.graph.scopes } from rfl]
        at ran
      simp only [performLogged, Reactive.perform]
      rw [← ran, Option.map_map, Option.map_map]
      rfl

end Logged

theorem logAll_erase (m : Meaning B V W) (calls : List (Nat × Program B V W Unit))
    (s : Logged B V W) : (logAll m calls s).map Logged.graph = runAll m calls s.graph := by
  induction calls generalizing s with
  | nil => rfl
  | cons call calls ih =>
    obtain ⟨depth, p⟩ := call
    rw [logAll, runAll, Option.map_bind, ← (Logged.erases_performLogged m depth).program m.same,
      Option.bind_map]
    exact Option.bind_congr fun r _ => ih r.2

/-- Every run can be logged. -/
theorem exists_log {m : Meaning B V W} {calls : List (Nat × Program B V W Unit)} {s : Logged B V W}
    {g : Graph B V W} (ran : runAll m calls s.graph = some g) :
    ∃ log, logAll m calls s = some ⟨g, log⟩ := by
  rw [← logAll_erase m calls s, Option.map_eq_some_iff] at ran
  obtain ⟨⟨_, log⟩, logged, rfl⟩ := ran
  exact ⟨log, logged⟩

theorem Program.exists_log {m : Meaning B V W} {p : Program B V W α} {depth : Nat}
    {s : Logged B V W} {a : α} {g : Graph B V W}
    (ran : p.run m.same (perform m depth) s.graph = some (a, g)) :
    ∃ log, p.log m.same (performLogged m depth) s = some (a, ⟨g, log⟩) := by
  rw [← (Logged.erases_performLogged m depth).program m.same p s, Option.map_eq_some_iff] at ran
  obtain ⟨⟨_, ⟨_, log⟩⟩, logged, heq⟩ := ran
  obtain ⟨rfl, rfl⟩ := Prod.mk.inj heq
  exact ⟨log, logged⟩

end StoryPreview.Reactive
