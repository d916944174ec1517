import StoryPreview.Reactive.Program
/-!
The state of a system of reactive cells, and the steps that change it. A listener is alive while it
is guarded or while a change that captured it is being announced. Each effect counts its runs as
epochs; listeners that were attached after an older run no longer make it run.
-/
namespace StoryPreview.Reactive

structure Cell (V : Type) where
  value : V
  version : Nat := 0
  /-- The listeners that were attached, in order. Dead ones are left out at the next change. -/
  slots : List ListenerId := []

inductive Reaction (B : Type) where
  | call (body : B)
  /-- It makes an effect run again that was in that epoch when the listener was attached. -/
  | rerun (e : EffectId) (epoch : Nat)

structure Listener (B : Type) where
  reaction : Reaction B
  /-- Whether it has not been given up. -/
  guarded : Bool := true
  /-- How many announcements that are under way have captured it. -/
  pins : Nat := 0

def Listener.isLive {B : Type} (l : Listener B) : Bool := l.guarded || l.pins != 0

structure Effect (B : Type) where
  body : B
  subscriptions : List ListenerId := []
  dependencies : Nat := 0
  running : Bool := false
  disposed : Bool := false
  /-- Whether it has not been given up. -/
  owned : Bool := true
  runs : Nat := 0
  epoch : Nat := 0

inductive Scope where
  /-- To the effect that is running; the cells it has read so far, each once. -/
  | tracked (cells : List CellId)
  | untracked

inductive Event (V : Type) where
  | changed (c : CellId) (value : V) (version listeners : Nat)
  | called (l : ListenerId) (value : V)
  | started (e : EffectId)
  | ran (e : EffectId) (dependencies run : Nat)
  /-- A listener of an older run was called. -/
  | stale (e : EffectId) (epoch current : Nat)
  | noted (n : Note)

def Event.note? {V : Type} : Event V → Option Note
  | changed _ _ version listeners =>
    if listeners = 0 then none
    else some ⟨.trace, .cell, "observable changed",
      [("version", toString version), ("listeners", toString listeners)]⟩
  | called _ _ => none
  | started _ => none
  | ran _ dependencies run =>
    some ⟨.trace, .effect, "effect ran",
      [("dependencies", toString dependencies), ("run", toString run)]⟩
  | stale _ epoch current =>
    some ⟨.trace, .effect, "stale effect trigger ignored",
      [("epoch", toString epoch), ("current", toString current)]⟩
  | noted n => some n

structure Graph (B V W : Type) where
  cells : List (Cell V) := []
  listeners : List (Listener B) := []
  effects : List (Effect B) := []
  /-- The scopes of the bodies that are running, innermost first. -/
  scopes : List Scope := []
  span : Option Span := none
  /-- What has happened, latest first. -/
  history : List (Option Span × Event V) := []
  world : W

namespace Graph
variable {B V W : Type}

def record (g : Graph B V W) (e : Event V) : Graph B V W :=
  { g with history := (g.span, e) :: g.history }

def journal (g : Graph B V W) : List Entry :=
  g.history.reverse.filterMap fun (span, e) => e.note?.map (Entry.mk span)

def isLive (g : Graph B V W) (l : ListenerId) : Bool :=
  match g.listeners[l]? with
  | some x => x.isLive
  | none => false

def cellView? (g : Graph B V W) (c : CellId) : Option (CellView V) :=
  g.cells[c]?.map fun x => ⟨x.value, x.version, x.slots.countP g.isLive⟩

def effectView? (g : Graph B V W) (e : EffectId) : Option EffectView :=
  g.effects[e]?.map fun x => ⟨x.runs, x.dependencies, x.disposed⟩

def addCell (g : Graph B V W) (v : V) : CellId × Graph B V W :=
  (g.cells.length, { g with cells := g.cells ++ [{ value := v }] })

def track (g : Graph B V W) (c : CellId) : Graph B V W :=
  match g.scopes with
  | .tracked cells :: scopes =>
    if c ∈ cells then g else { g with scopes := .tracked (cells ++ [c]) :: scopes }
  | _ => g

def subscribe (g : Graph B V W) (c : CellId) (r : Reaction B) : ListenerId × Graph B V W :=
  (g.listeners.length,
    { g with
      listeners := g.listeners ++ [{ reaction := r }]
      cells := g.cells.modify c fun x => { x with slots := x.slots ++ [g.listeners.length] } })

def release (g : Graph B V W) (l : ListenerId) : Graph B V W :=
  { g with listeners := g.listeners.modify l fun x => { x with guarded := false } }

def releaseAll (g : Graph B V W) (ls : List ListenerId) : Graph B V W := ls.foldl release g

def pin (g : Graph B V W) (l : ListenerId) : Graph B V W :=
  { g with listeners := g.listeners.modify l fun x => { x with pins := x.pins + 1 } }

def unpin (g : Graph B V W) (l : ListenerId) : Graph B V W :=
  { g with listeners := g.listeners.modify l fun x => { x with pins := x.pins - 1 } }

/-- Gives a cell a value. Without a change nothing happens. Else dead listeners are left out, and
the others are captured, to be called in order. -/
def assign (g : Graph B V W) (same : V → V → Bool) (c : CellId) (v : V) :
    Option (List ListenerId × Graph B V W) :=
  g.cells[c]?.map fun x =>
    if same x.value v then ([], g)
    else
      let slots := x.slots.filter g.isLive
      let g := { g with cells := g.cells.set c ⟨v, x.version + 1, slots⟩ }
      (slots, slots.foldl pin (g.record (.changed c v (x.version + 1) slots.length)))

def addEffect (g : Graph B V W) (body : B) : EffectId × Graph B V W :=
  (g.effects.length, { g with effects := g.effects ++ [{ body := body }] })

/-- A run of an effect starts: what it depended on is released. -/
def start (g : Graph B V W) (e : EffectId) (x : Effect B) : Graph B V W :=
  let g := g.releaseAll x.subscriptions
  { g with
    effects := g.effects.set e { x with running := true, epoch := x.epoch + 1, subscriptions := [] }
    scopes := .tracked [] :: g.scopes }.record (.started e)

def reads (g : Graph B V W) : List CellId :=
  match g.scopes with
  | .tracked cells :: _ => cells
  | _ => []

def attach (g : Graph B V W) (e : EffectId) (epoch : Nat) :
    List CellId → List ListenerId × Graph B V W
  | [] => ([], g)
  | c :: cs =>
    let (l, g) := g.subscribe c (.rerun e epoch)
    let (ls, g) := g.attach e epoch cs
    (l :: ls, g)

/-- A run of an effect ends: it is attached to the cells that the run has read, unless it was
disposed meanwhile. -/
def finish (g : Graph B V W) (e : EffectId) : Graph B V W :=
  let reads := g.reads
  let g := { g with scopes := g.scopes.tail }
  match g.effects[e]? with
  | none => g
  | some x =>
    let x := { x with runs := x.runs + 1, running := false }
    if x.disposed then { g with effects := g.effects.set e x }
    else
      let (ls, g) := g.attach e x.epoch reads
      { g with
        effects := g.effects.set e { x with
          subscriptions := ls
          dependencies := ls.length } }.record (.ran e ls.length x.runs)

def dispose (g : Graph B V W) (e : EffectId) : Graph B V W :=
  match g.effects[e]? with
  | none => g
  | some x =>
    if x.disposed then g
    else
      let g := g.releaseAll x.subscriptions
      { g with
        effects := g.effects.set e { x with
          disposed := true
          subscriptions := []
          dependencies := 0 } }

def drop (g : Graph B V W) (e : EffectId) : Graph B V W :=
  let g := g.dispose e
  { g with effects := g.effects.modify e fun x => { x with owned := false } }

end Graph
end StoryPreview.Reactive
