import StoryPreview.Journal
/-!
Programs over reactive cells. A program creates, reads and writes cells, attaches listeners to them,
and spawns effects, which run again when a cell that they read has changed. Bodies of listeners and
effects are named by codes of a type `B`, so that the state of a system of cells is plain data. `V`
is the type of the values in cells, and `W` the type of a world beside them that programs look at
and change.
-/
namespace StoryPreview.Reactive

abbrev CellId := Nat

abbrev ListenerId := Nat

abbrev EffectId := Nat

structure CellView (V : Type) where
  value : V
  version : Nat
  listeners : Nat
  deriving Inhabited

structure EffectView where
  runs : Nat
  dependencies : Nat
  disposed : Bool
  deriving Inhabited

def CellView.inspect {V : Type} (inspectValue : V → String) (x : CellView V) : String :=
  "Observable \x7b value: " ++ inspectValue x.value ++ ", version: " ++
    toString x.version ++ ", .. \x7d"

def EffectView.inspect (x : EffectView) : String :=
  "Effect \x7b runs: " ++ toString x.runs ++ ", dependencies: " ++ toString x.dependencies ++
    ", disposed: " ++ toString x.disposed ++ " \x7d"

inductive Program (B V W α : Type) where
  | done (a : α)
  | create (v : V) (next : CellId → Program B V W α)
  /-- Reads a cell; the effect that is running depends on it from now on. -/
  | read (c : CellId) (next : V → Program B V W α)
  /-- Looks at a cell; no effect depends on it for that. -/
  | inspect (c : CellId) (next : CellView V → Program B V W α)
  /-- Gives a cell a value. If the value is not the same as before, all listeners of the cell are
  called before the program goes on. -/
  | write (c : CellId) (v : V) (next : Program B V W α)
  /-- Runs a body whose reads make no effect depend on anything. -/
  | untracked (body : B) (next : Program B V W α)
  | subscribe (c : CellId) (reaction : B) (next : ListenerId → Program B V W α)
  | release (l : ListenerId) (next : Program B V W α)
  /-- Creates an effect, which runs its body at once. -/
  | spawn (body : B) (next : EffectId → Program B V W α)
  /-- Detaches an effect from all cells for good. -/
  | dispose (e : EffectId) (next : Program B V W α)
  /-- Gives up an effect, which also disposes it. -/
  | drop (e : EffectId) (next : Program B V W α)
  | examine (e : EffectId) (next : EffectView → Program B V W α)
  | ask (next : W → Program B V W α)
  | change (f : W → W) (next : Program B V W α)
  | report (n : Note) (next : Program B V W α)
  /-- What is reported from now on is reported in a span, or in none. -/
  | within (span : Option Span) (next : Program B V W α)

namespace Program
variable {B V W α β : Type}

def bind : Program B V W α → (α → Program B V W β) → Program B V W β
  | done a, f => f a
  | create v next, f => create v fun c => (next c).bind f
  | read c next, f => read c fun v => (next v).bind f
  | inspect c next, f => inspect c fun v => (next v).bind f
  | write c v next, f => write c v (next.bind f)
  | untracked body next, f => untracked body (next.bind f)
  | subscribe c reaction next, f => subscribe c reaction fun l => (next l).bind f
  | release l next, f => release l (next.bind f)
  | spawn body next, f => spawn body fun e => (next e).bind f
  | dispose e next, f => dispose e (next.bind f)
  | drop e next, f => drop e (next.bind f)
  | examine e next, f => examine e fun v => (next v).bind f
  | ask next, f => ask fun w => (next w).bind f
  | change g next, f => change g (next.bind f)
  | report n next, f => report n (next.bind f)
  | within span next, f => within span (next.bind f)

instance : Monad (Program B V W) where
  pure := done
  bind := bind

end Program

/-- What values and the codes of bodies mean: when a write leaves a value as it is, what an effect
does, and what a listener does with a new value. -/
structure Meaning (B V W : Type) where
  same : V → V → Bool
  body : B → Program B V W Unit
  reaction : B → V → Program B V W Unit

end StoryPreview.Reactive
