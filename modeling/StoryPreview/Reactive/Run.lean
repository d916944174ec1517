import StoryPreview.Reactive.Graph
/-!
Running programs. Announcing a change calls each captured listener in order, and a listener may
write again, so runs nest; a number bounds how deep. A run within a bound is the same within any
larger one.
-/
namespace StoryPreview.Reactive
variable {B V W α : Type}

inductive Task (B V : Type) where
  | call (l : ListenerId) (v : V)
  | effect (e : EffectId)
  | untracked (body : B)

abbrev Doer (B V W : Type) := Task B V → Graph B V W → Option (Graph B V W)

def announce (perform : Doer B V W) (v : V) : List ListenerId → Graph B V W → Option (Graph B V W)
  | [], g => some g
  | l :: ls, g => (perform (.call l v) g).bind (announce perform v ls)

def Program.run (same : V → V → Bool) (perform : Doer B V W) :
    Program B V W α → Graph B V W → Option (α × Graph B V W)
  | .done a, g => some (a, g)
  | .create v next, g => (next (g.addCell v).1).run same perform (g.addCell v).2
  | .read c next, g => g.cells[c]?.bind fun x => (next x.value).run same perform (g.track c)
  | .inspect c next, g => (g.cellView? c).bind fun x => (next x).run same perform g
  | .write c v next, g =>
    (g.assign same c v).bind fun (ls, g) =>
      (announce perform v ls g).bind fun g => next.run same perform (ls.foldl Graph.unpin g)
  | .untracked body next, g => (perform (.untracked body) g).bind (next.run same perform)
  | .subscribe c reaction next, g =>
    let (l, g) := g.subscribe c (.call reaction)
    (next l).run same perform g
  | .release l next, g => next.run same perform (g.release l)
  | .spawn body next, g =>
    let (e, g) := g.addEffect body
    (perform (.effect e) g).bind ((next e).run same perform)
  | .dispose e next, g => next.run same perform (g.dispose e)
  | .drop e next, g => next.run same perform (g.drop e)
  | .examine e next, g => (g.effectView? e).bind fun x => (next x).run same perform g
  | .ask next, g => (next g.world).run same perform g
  | .change f next, g => next.run same perform { g with world := f g.world }
  | .report n next, g => next.run same perform (g.record (.noted n))
  | .within span next, g => next.run same perform { g with span := span }

def rerun (m : Meaning B V W) (perform : Doer B V W) (e : EffectId) (g : Graph B V W) :
    Option (Graph B V W) :=
  g.effects[e]?.bind fun x =>
    if x.disposed || x.running then some g
    else ((m.body x.body).run m.same perform (g.start e x)).map fun r => r.2.finish e

/-- Does what a listener is for. An effect that has been given up is only there while it runs. -/
def react (m : Meaning B V W) (perform : Doer B V W) (v : V) (g : Graph B V W) :
    Reaction B → Option (Graph B V W)
  | .call body => ((m.reaction body v).run m.same perform g).map Prod.snd
  | .rerun e epoch =>
    g.effects[e]?.bind fun x =>
      if !(x.owned || x.running) then some g
      else if x.epoch ≠ epoch then some (g.record (.stale e epoch x.epoch))
      else rerun m perform e g

/-- Does a task with bodies nested at most so deep. -/
def perform (m : Meaning B V W) : Nat → Doer B V W
  | 0 => fun _ _ => none
  | depth + 1 => fun task g =>
    match task with
    | .call l v =>
      g.listeners[l]?.bind fun x => react m (perform m depth) v (g.record (.called l v)) x.reaction
    | .effect e => rerun m (perform m depth) e g
    | .untracked body =>
      ((m.body body).run m.same (perform m depth)
        { g with scopes := .untracked :: g.scopes }).map fun r =>
          { r.2 with scopes := r.2.scopes.tail }

def depthLimit : Nat := 1000

def Program.exec (m : Meaning B V W) (p : Program B V W α) (g : Graph B V W) :
    Option (α × Graph B V W) :=
  p.run m.same (perform m depthLimit) g

end StoryPreview.Reactive
