import StoryPreview.Proofs.Reactive.Rewiring
/-!
Runs that leave a trail. The trail keeps for each run of an effect which cells it has read and what
it got, and whether a cell was given another value meanwhile. It is kept beside the state, and
nothing depends on it: without the trail a run is what it was.
-/
namespace StoryPreview.Reactive
variable {B V W α : Type}

structure Run (V : Type) where
  /-- The cells that were read for the effect, with what was got, latest first. -/
  reads : List (CellId × V) := []
  /-- Whether a cell was given another value during the run. -/
  disturbed : Bool := false

structure Trail (V : Type) where
  /-- The scopes that are open, innermost first: the runs of effects, and scopes without
  tracking. -/
  frames : List (Option (Run V)) := []
  /-- The run of each effect that came to an end last. -/
  latest : EffectId → Option (Run V) := fun _ => none

namespace Trail

def read (t : Trail V) (c : CellId) (v : V) : Trail V :=
  match t.frames with
  | some r :: frames => { t with frames := some { r with reads := (c, v) :: r.reads } :: frames }
  | _ => t

def disturb (t : Trail V) : Trail V :=
  { t with frames := t.frames.map (Option.map fun r => { r with disturbed := true }) }

def enter (t : Trail V) (frame : Option (Run V)) : Trail V := { t with frames := frame :: t.frames }

def leave (t : Trail V) : Trail V := { t with frames := t.frames.tail }

def finish (t : Trail V) (e : EffectId) : Trail V :=
  { t.leave with latest := fun d => if d = e then t.frames.head?.join else t.latest d }

end Trail

structure Traced (B V W : Type) where
  graph : Graph B V W
  trail : Trail V := {}

namespace Traced

def step (s : Traced B V W) (f : Graph B V W → Graph B V W) : Traced B V W :=
  { s with graph := f s.graph }

def assign (s : Traced B V W) (same : V → V → Bool) (c : CellId)
    (v : V) : Option (List ListenerId × Traced B V W) :=
  s.graph.cells[c]?.bind fun x => (s.graph.assign same c v).map fun r =>
    (r.1, ⟨r.2, if same x.value v then s.trail else s.trail.disturb⟩)

def start (s : Traced B V W) (e : EffectId) (x : Effect B) : Traced B V W :=
  ⟨s.graph.start e x, s.trail.enter (some {})⟩

def finish (s : Traced B V W) (e : EffectId) : Traced B V W := ⟨s.graph.finish e, s.trail.finish e⟩

def suspend (s : Traced B V W) : Traced B V W :=
  ⟨{ s.graph with scopes := .untracked :: s.graph.scopes }, s.trail.enter none⟩

def restore (s : Traced B V W) : Traced B V W := ⟨s.graph.pop, s.trail.leave⟩

end Traced

abbrev Tracer (B V W : Type) := Task B V → Traced B V W → Option (Traced B V W)

def announceTraced (perform : Tracer B V W) (v : V) :
    List ListenerId → Traced B V W → Option (Traced B V W)
  | [], s => some s
  | l :: ls, s => (perform (.call l v) s).bind (announceTraced perform v ls)

def Program.trace (same : V → V → Bool) (perform : Tracer B V W) :
    Program B V W α → Traced B V W → Option (α × Traced B V W)
  | .done a, s => some (a, s)
  | .create v next, s => (next s.graph.cells.length).trace same perform (s.step fun g =>
    (g.addCell v).2)
  | .read c next, s =>
    s.graph.cells[c]?.bind fun x => (next x.value).trace same perform ⟨s.graph.track c,
      s.trail.read c x.value⟩
  | .inspect c next, s => (s.graph.cellView? c).bind fun x => (next x).trace same perform s
  | .write c v next, s =>
    (s.assign same c v).bind fun r =>
      (announceTraced perform v r.1 r.2).bind fun s =>
        next.trace same perform (s.step (r.1.foldl Graph.unpin))
  | .untracked body next, s => (perform (.untracked body) s).bind (next.trace same perform)
  | .subscribe c reaction next, s =>
    (next s.graph.listeners.length).trace same perform (s.step fun g =>
      (g.subscribe c (.call reaction)).2)
  | .release l next, s => next.trace same perform (s.step (·.release l))
  | .spawn body next, s =>
    (perform (.effect s.graph.effects.length) (s.step fun g => (g.addEffect body).2)).bind
      ((next s.graph.effects.length).trace same perform)
  | .dispose e next, s => next.trace same perform (s.step (·.dispose e))
  | .drop e next, s => next.trace same perform (s.step (·.drop e))
  | .examine e next, s => (s.graph.effectView? e).bind fun x => (next x).trace same perform s
  | .ask next, s => (next s.graph.world).trace same perform s
  | .change f next, s => next.trace same perform (s.step fun g => g.withWorld (f g.world))
  | .report n next, s => next.trace same perform (s.step (·.record (.noted n)))
  | .within span next, s => next.trace same perform (s.step (·.withSpan span))

def rerunTraced (m : Meaning B V W) (perform : Tracer B V W) (e : EffectId) (s : Traced B V W) :
    Option (Traced B V W) :=
  s.graph.effects[e]?.bind fun x =>
    if x.disposed || x.running then some s
    else ((m.body x.body).trace m.same perform (s.start e x)).map fun r => r.2.finish e

def reactTraced (m : Meaning B V W) (perform : Tracer B V W) (v : V) (s : Traced B V W) :
    Reaction B → Option (Traced B V W)
  | .call body => ((m.reaction body v).trace m.same perform s).map Prod.snd
  | .rerun e epoch =>
    s.graph.effects[e]?.bind fun x =>
      if !(x.owned || x.running) then some s
      else if x.epoch ≠ epoch then some (s.step (·.record (.stale e epoch x.epoch)))
      else rerunTraced m perform e s

def performTraced (m : Meaning B V W) : Nat → Tracer B V W
  | 0 => fun _ _ => none
  | depth + 1 => fun task s =>
    match task with
    | .call l v =>
      s.graph.listeners[l]?.bind fun y =>
        reactTraced m (performTraced m depth) v (s.step (·.record (.called l v))) y.reaction
    | .effect e => rerunTraced m (performTraced m depth) e s
    | .untracked body =>
      ((m.body body).trace m.same (performTraced m depth) s.suspend).map fun r => r.2.restore

def runAll (m : Meaning B V W) : List (Nat × Program B V W Unit) → Graph B V W →
    Option (Graph B V W)
  | [], g => some g
  | (depth, p) :: calls, g => (p.run m.same (perform m depth) g).bind fun r => runAll m calls r.2

def traceAll (m : Meaning B V W) : List (Nat × Program B V W Unit) → Traced B V W →
    Option (Traced B V W)
  | [], s => some s
  | (depth, p) :: calls, s =>
    (p.trace m.same (performTraced m depth) s).bind fun r => traceAll m calls r.2

/-! ### Without the trail -/

def Erases (perform : Tracer B V W) (doer : Doer B V W) : Prop :=
  ∀ task s, (perform task s).map Traced.graph = doer task s.graph

variable {perform : Tracer B V W} {doer : Doer B V W}

theorem Erases.bind {β : Type} (h : Erases perform doer) (task : Task B V) (s : Traced B V W)
    {f : Traced B V W → Option β} {f' : Graph B V W → Option β} (hf : ∀ s, f s = f' s.graph) :
    (perform task s).bind f = (doer task s.graph).bind f' := by
  rw [← h task s, Option.bind_map]
  exact Option.bind_congr fun s' _ => hf s'

theorem announceTraced_erase (h : Erases perform doer) (v : V) (ls : List ListenerId)
    (s : Traced B V W) :
    (announceTraced perform v ls s).map Traced.graph = announce doer v ls s.graph := by
  induction ls generalizing s with
  | nil => rfl
  | cons l ls ih =>
    rw [announceTraced, Option.map_bind, announce]
    exact h.bind _ s ih

def untraced (r : α × Traced B V W) : α × Graph B V W := (r.1, r.2.graph)

theorem Program.trace_erase (same : V → V → Bool) (h : Erases perform doer) (p : Program B V W α)
    (s : Traced B V W) : (p.trace same perform s).map untraced = p.run same doer s.graph := by
  induction p generalizing s with
  | done a => rfl
  | create v next ih => exact ih _ _
  | read c next ih =>
    rw [trace, Option.map_bind, run]
    exact Option.bind_congr fun x _ => ih _ _
  | inspect c next ih =>
    rw [trace, Option.map_bind, run]
    exact Option.bind_congr fun x _ => ih _ _
  | write c v next ih =>
    rw [trace, Option.map_bind, run, Traced.assign]
    cases hx : s.graph.cells[c]? with
    | none => simp [Graph.assign, hx]
    | some x =>
      rw [Option.bind_some, Option.bind_map]
      refine Option.bind_congr fun r _ => ?_
      have announced := announceTraced_erase h v r.1
        (s := ⟨r.2, if same x.value v then s.trail else s.trail.disturb⟩)
      simp only [Function.comp_apply]
      rw [Option.map_bind, ← announced, Option.bind_map]
      exact Option.bind_congr fun s' _ => ih _
  | untracked body next ih =>
    rw [trace, Option.map_bind, run]
    exact h.bind _ s ih
  | subscribe c reaction next ih => exact ih _ _
  | release l next ih => exact ih _
  | spawn body next ih =>
    rw [trace, Option.map_bind, run]
    exact h.bind _ (s.step fun g => (g.addEffect body).2) (ih _)
  | dispose e next ih => exact ih _
  | drop e next ih => exact ih _
  | examine e next ih =>
    rw [trace, Option.map_bind, run]
    exact Option.bind_congr fun x _ => ih _ _
  | ask next ih => exact ih _ _
  | change f next ih => exact ih _
  | report n next ih => exact ih _
  | within span next ih => exact ih _

section Tasks
variable {m : Meaning B V W}

theorem rerunTraced_erase (h : Erases perform doer) (e : EffectId) (s : Traced B V W) :
    (rerunTraced m perform e s).map Traced.graph = rerun m doer e s.graph := by
  rw [rerunTraced, Option.map_bind, rerun]
  refine Option.bind_congr fun x _ => ?_
  simp only [Function.comp_apply]
  split
  · rfl
  · have ran := Program.trace_erase m.same h (m.body x.body) (s.start e x)
    rw [show (s.start e x).graph = s.graph.start e x from rfl] at ran
    rw [← ran, Option.map_map, Option.map_map]
    rfl

theorem reactTraced_erase (h : Erases perform doer) (v : V) (s : Traced B V W) (r : Reaction B) :
    (reactTraced m perform v s r).map Traced.graph = react m doer v s.graph r := by
  cases r with
  | call body =>
    rw [reactTraced, react, ← Program.trace_erase m.same h, Option.map_map, Option.map_map]
    rfl
  | rerun e epoch =>
    rw [reactTraced, Option.map_bind, react]
    refine Option.bind_congr fun x _ => ?_
    simp only [Function.comp_apply]
    split
    · rfl
    · split
      · rfl
      · exact rerunTraced_erase h e s

theorem performTraced_erase (m : Meaning B V W) (depth : Nat) :
    Erases (performTraced m depth) (Reactive.perform m depth) := by
  induction depth with
  | zero => exact fun _ _ => rfl
  | succ depth ih =>
    intro task s
    cases task with
    | call l v =>
      rw [performTraced, Option.map_bind, Reactive.perform]
      exact Option.bind_congr fun y _ => reactTraced_erase ih v _ y.reaction
    | effect e => exact rerunTraced_erase ih e s
    | untracked body =>
      have ran := Program.trace_erase m.same ih (m.body body) s.suspend
      rw [show s.suspend.graph = { s.graph with scopes := .untracked :: s.graph.scopes } from rfl]
        at ran
      simp only [performTraced, Reactive.perform]
      rw [← ran, Option.map_map, Option.map_map]
      rfl

theorem traceAll_erase (m : Meaning B V W) (calls : List (Nat × Program B V W Unit))
    (s : Traced B V W) : (traceAll m calls s).map Traced.graph = runAll m calls s.graph := by
  induction calls generalizing s with
  | nil => rfl
  | cons call calls ih =>
    obtain ⟨depth, p⟩ := call
    rw [traceAll, runAll, Option.map_bind,
      ← Program.trace_erase m.same (performTraced_erase m depth), Option.bind_map]
    exact Option.bind_congr fun r _ => ih r.2

end Tasks
end StoryPreview.Reactive
