import StoryPreview.Reactive.Graph
/-!
Logs of what happens in a system of cells, and accounts of them. A log marks, in order, each tracked
read, each change and its announcement, each call of a listener, each run of an effect, and what is
attached and given up. The account of a log says what is under way, and what there is to know about
effects and listeners from the log alone.
-/
namespace StoryPreview.Reactive
variable {V : Type}

inductive Mark (V : Type) where
  /-- A cell is read, and not only looked at. -/
  | read (c : CellId)
  /-- A cell is given another value, and the announcement to the captured listeners begins. -/
  | changed (c : CellId) (v : V) (captured : List ListenerId)
  /-- The announcement of a change ends. -/
  | settled (c : CellId)
  | called (l : ListenerId) (v : V)
  | returned (l : ListenerId)
  | suspended
  | resumed
  | subscribed (c : CellId) (l : ListenerId)
  | released (l : ListenerId)
  | spawned (e : EffectId)
  | reran (e : EffectId)
  | ended (e : EffectId)
  | disposed (e : EffectId)
  | dropped (e : EffectId)

structure Round (V : Type) where
  cell : CellId
  value : V
  captured : List ListenerId
  /-- The captured listeners that have not been called yet. -/
  pending : List ListenerId
  /-- The effects that depended on the cell when it changed. -/
  due : List EffectId
  /-- The effects that the announcement itself has made run again. -/
  ran : List EffectId := []
  /-- Whether no cell has changed since the announcement began. -/
  calm : Bool := true

def Round.stirred (r : Round V) : Round V := { r with calm := false }

inductive Layer (V : Type) where
  | round (r : Round V)
  | call (l : ListenerId)
  /-- A run of an effect, and the cells that it has read so far, each once. -/
  | run (e : EffectId) (reads : List CellId)
  | untracked

structure Account (V : Type) where
  /-- What is under way, innermost first. -/
  layers : List (Layer V) := []
  effects : Nat := 0
  /-- What the run of each effect that ended last has read. -/
  latest : EffectId → List CellId := fun _ => []
  /-- The effects that have been disposed or dropped. -/
  gone : List EffectId := []
  /-- The listeners that have been attached by themselves and not been given up, with their
  cells. -/
  guards : List (CellId × ListenerId) := []

namespace Layer

def round? : Layer V → Option (Round V)
  | .round r => some r
  | _ => none

def running? : Layer V → Option EffectId
  | .run e _ => some e
  | _ => none

/-- A read is credited to the innermost run, unless there is a block without tracking inside it. -/
def credit (c : CellId) : List (Layer V) → List (Layer V)
  | .run e reads :: layers => .run e (if c ∈ reads then reads else reads ++ [c]) :: layers
  | .untracked :: layers => .untracked :: layers
  | layer :: layers => layer :: credit c layers
  | [] => []

def stir : Layer V → Layer V
  | .round r => .round r.stirred
  | layer => layer

def callNext (l : ListenerId) : List (Layer V) → List (Layer V)
  | .round r :: layers => .call l :: .round { r with pending := r.pending.erase l } :: layers
  | layers => .call l :: layers

def rerun (e : EffectId) : List (Layer V) → List (Layer V)
  | .call l :: .round r :: layers =>
    .run e [] :: .call l :: .round { r with ran := r.ran ++ [e] } :: layers
  | layers => .run e [] :: layers

end Layer

namespace Account

def rounds (a : Account V) : List (Round V) := a.layers.filterMap Layer.round?

def running (a : Account V) : List EffectId := a.layers.filterMap Layer.running?

def readers (a : Account V) (c : CellId) : List EffectId :=
  (List.range a.effects).filter fun e => e ∉ a.gone ∧ c ∈ a.latest e

def dependents (a : Account V) (c : CellId) : List EffectId := (a.readers c).filter (· ∉ a.running)

def announcement (a : Account V) (c : CellId) (v : V) (captured : List ListenerId) : Round V :=
  { cell := c, value := v, captured, pending := captured, due := a.dependents c }

def after (a : Account V) : Mark V → Account V
  | .read c => { a with layers := Layer.credit c a.layers }
  | .changed c v captured =>
    { a with layers := .round (a.announcement c v captured) :: a.layers.map .stir }
  | .called l _ => { a with layers := Layer.callNext l a.layers }
  | .settled _ | .returned _ | .resumed => { a with layers := a.layers.tail }
  | .suspended => { a with layers := .untracked :: a.layers }
  | .subscribed c l => { a with guards := a.guards ++ [(c, l)] }
  | .released l => { a with guards := a.guards.filter (·.2 ≠ l) }
  | .spawned e => { a with layers := .run e [] :: a.layers, effects := a.effects + 1 }
  | .reran e => { a with layers := Layer.rerun e a.layers }
  | .ended e => match a.layers with
    | .run _ reads :: layers =>
      { a with layers, latest := fun d => if d = e then reads else a.latest d }
    | _ => a
  | .disposed e | .dropped e => if e < a.effects then { a with gone := e :: a.gone } else a

end Account

def account (log : List (Mark V)) : Account V := log.foldl Account.after {}

theorem account_append (log news : List (Mark V)) :
    account (log ++ news) = news.foldl Account.after (account log) :=
  List.foldl_append

@[simp] theorem account_concat (log : List (Mark V)) (m : Mark V) :
    account (log ++ [m]) = (account log).after m := by
  rw [account_append]
  rfl

/-! ### What is under way -/

namespace Layer

theorem filterMap_credit {β : Type} {f : Layer V → Option β}
    (blind : ∀ e reads reads', f (.run e reads) = f (.run e reads')) (c : CellId)
    (layers : List (Layer V)) : (credit c layers).filterMap f = layers.filterMap f := by
  induction layers with
  | nil => rfl
  | cons layer layers ih =>
    cases layer with
    | run e reads => rw [credit, List.filterMap_cons, List.filterMap_cons, blind e _ reads]
    | untracked => rfl
    | round r => simp only [credit, List.filterMap_cons, ih]
    | call l => simp only [credit, List.filterMap_cons, ih]

theorem filterMap_stir {β : Type} {f : Layer V → Option β} (blind : ∀ layer, f layer.stir = f layer)
    (layers : List (Layer V)) : (layers.map stir).filterMap f = layers.filterMap f := by
  rw [List.filterMap_map]
  exact congrFun (congrArg List.filterMap (funext blind)) layers

theorem filterMap_round_credit (c : CellId) (layers : List (Layer V)) :
    (credit c layers).filterMap round? = layers.filterMap round? :=
  filterMap_credit (fun _ _ _ => rfl) c layers

theorem filterMap_running_credit (c : CellId) (layers : List (Layer V)) :
    (credit c layers).filterMap running? = layers.filterMap running? :=
  filterMap_credit (fun _ _ _ => rfl) c layers

theorem filterMap_running_stir (layers : List (Layer V)) :
    (layers.map stir).filterMap running? = layers.filterMap running? :=
  filterMap_stir (fun layer => by cases layer <;> rfl) layers

theorem filterMap_round_stir (layers : List (Layer V)) :
    (layers.map stir).filterMap round? = (layers.filterMap round?).map .stirred := by
  induction layers with
  | nil => rfl
  | cons layer layers ih => cases layer <;> simp [stir, round?, List.filterMap_cons, ih]

end Layer

/-! ### The innermost layer -/

section Top
variable {a : Account V} {r : Round V} {l : ListenerId} {layer : Layer V} {layers : List (Layer V)}

theorem rounds_of_round (top : a.layers = .round r :: layers) :
    a.rounds = r :: layers.filterMap Layer.round? := by
  rw [Account.rounds, top]
  rfl

theorem rounds_of_call (top : a.layers = .call l :: .round r :: layers) :
    a.rounds = r :: layers.filterMap Layer.round? := by
  rw [Account.rounds, top]
  rfl

theorem rounds_of_none (top : a.layers = layer :: layers) (other : layer.round? = none) :
    a.rounds = layers.filterMap Layer.round? := by
  rw [Account.rounds, top, List.filterMap_cons_none other]

theorem running_of_none (top : a.layers = layer :: layers) (other : layer.running? = none) :
    a.running = layers.filterMap Layer.running? := by
  rw [Account.running, top, List.filterMap_cons_none other]

end Top

end StoryPreview.Reactive
