import StoryPreview.Arguments.Basic
import StoryPreview.Reactive.Run
/-!
Scripts: a small language of statements over named cells, effects and listeners, which says in a log
what it reads and what runs. Each statement that is carried out uses up one unit of a budget, so
that scripts whose parts set each other off come to an end; without budget a statement does nothing.
-/
namespace StoryPreview.Reactive

inductive Access where
  | get
  | with
  | peek
  | withUntracked
  | untrackedGet
  deriving DecidableEq, Repr

def Access.isTracked : Access → Bool
  | get | .with => true
  | _ => false

inductive Thing where
  | cell
  | effect
  | listener
  deriving DecidableEq, Repr

inductive Statement where
  | read (how : Access) (cell : String)
  | set (cell : String) (value : Argument)
  | copy (source target : String)
  /-- Adds to a number that is below a limit. -/
  | add (cell : String) (amount limit : Double)
  | branch (cell : String) (value : Argument) (same other : List Statement)
  | untracked (body : List Statement)
  | log (label : Json)
  | live (cell : String)
  | spawn (effect : String) (body : List Statement)
  | inspect (thing : Thing) (name : String)
  | dispose (effect : String)
  | drop (effect : String)
  | subscribe (name cell : String) (body : List Statement)
  | unsubscribe (name : String)
  deriving Inhabited

namespace Script

inductive Line where
  | read (how : Access) (cell : String) (value : Argument)
  | label (label : Json)
  | live (cell : String) (listeners : Nat)
  | inspected (name : String) (text : Option String)
  | run (effect : String)
  | ended (effect : String)
  | notified (name : String) (value : Argument)

structure State where
  budget : Nat
  cells : Entries CellId := []
  effects : Entries EffectId := []
  listeners : Entries ListenerId := []
  log : List Line := []

inductive Block where
  | plain (body : List Statement)
  | effect (name : String) (body : List Statement)
  | listener (name : String) (body : List Statement)

abbrev Code := Program Block Argument State

def spend : Code Bool :=
  .ask fun s => if s.budget = 0 then .done false
    else .change (fun s => { s with budget := s.budget - 1 }) (.done true)

def say (line : Line) : Code Unit := .change (fun s => { s with log := line :: s.log }) (.done ())

def withCell (name : String) (f : CellId → Code Unit) : Code Unit :=
  .ask fun s => match s.cells.get? name with
    | some c => f c
    | none => .done ()

def withEffect (name : String) (f : EffectId → Code Unit) : Code Unit :=
  .ask fun s => match s.effects.get? name with
    | some e => f e
    | none => .done ()

def withListener (name : String) (f : ListenerId → Code Unit) : Code Unit :=
  .ask fun s => match s.listeners.get? name with
    | some l => f l
    | none => .done ()

def readCell (how : Access) (name : String) (c : CellId) : Code Unit :=
  if how.isTracked then .read c fun v => say (.read how name v)
  else .inspect c fun x => say (.read how name x.value)

def addTo (c : CellId) (amount limit : Double) : Code Unit :=
  .inspect c fun x => match x.value with
    | .number n => if n.lt limit then .write c (.number (n.add amount)) (.done ()) else .done ()
    | _ => .done ()

/-- Keeps an effect under a name, and then gives up the one that had it before. -/
def keepEffect (name : String) (e : EffectId) : Code Unit :=
  .ask fun s => .change (fun s => { s with effects := s.effects.insert name e })
    (match s.effects.get? name with
      | some old => .drop old (.done ())
      | none => .done ())

def keepListener (name : String) (l : ListenerId) : Code Unit :=
  .ask fun s => .change (fun s => { s with listeners := s.listeners.insert name l })
    (match s.listeners.get? name with
      | some old => .release old (.done ())
      | none => .done ())

def inspect (thing : Thing) (name : String) : Code Unit :=
  .ask fun s => match thing with
    | .cell => match s.cells.get? name with
      | some c => .inspect c fun x => say (.inspected name (some (x.inspect Argument.inspect)))
      | none => say (.inspected name none)
    | .effect => match s.effects.get? name with
      | some e => .examine e fun x => say (.inspected name (some x.inspect))
      | none => say (.inspected name none)
    | .listener =>
      say (.inspected name ((s.listeners.get? name).map fun _ => "Subscription \x7b .. \x7d"))

mutual

def statement : Statement → Code Unit
  | .read how cell => spent (withCell cell (readCell how cell))
  | .set cell value => spent (withCell cell fun c => .write c value (.done ()))
  | .copy source target => spent (withCell source fun a => .read a fun v =>
      withCell target fun b => .write b v (.done ()))
  | .add cell amount limit => spent (withCell cell fun c => addTo c amount limit)
  | .branch cell value same other => spent (withCell cell fun c => .read c fun v =>
      if v.same value then statements same else statements other)
  | .untracked body => spent (.untracked (.plain body) (.done ()))
  | .log label => spent (say (.label label))
  | .live cell => spent (withCell cell fun c => .inspect c fun x => say (.live cell x.listeners))
  | .spawn effect body => spent (.spawn (.effect effect body) (keepEffect effect))
  | .inspect thing name => spent (inspect thing name)
  | .dispose effect => spent (withEffect effect fun e => .dispose e (.done ()))
  | .drop effect => spent (withEffect effect fun e =>
      .change (fun s => { s with effects := s.effects.erase effect }) (.drop e (.done ())))
  | .subscribe name cell body => spent (withCell cell fun c =>
      .subscribe c (.listener name body) (keepListener name))
  | .unsubscribe name => spent (withListener name fun l =>
      .change (fun s => { s with listeners := s.listeners.erase name }) (.release l (.done ())))
where
  spent (act : Code Unit) : Code Unit := do
    if ← spend then act

def statements : List Statement → Code Unit
  | [] => .done ()
  | s :: rest => do
    statement s
    statements rest

end

def meaning : Meaning Block Argument State where
  same := Argument.same
  body
    | .plain body => statements body
    | .effect name body => do
      say (.run name)
      statements body
      say (.ended name)
    | .listener _ body => statements body
  reaction block v := match block with
    | .listener name body => do
      say (.notified name v)
      statements body
    | .plain body | .effect _ body => statements body

def begin (budget : Nat) (cells : Entries Argument) : Graph Block Argument State :=
  cells.foldl (fun g (name, v) =>
      let (c, g) := g.addCell v
      { g with world := { g.world with cells := g.world.cells.insert name c } })
    { world := { budget := budget } }

def exec (s : Statement) (g : Graph Block Argument State) : Option (Graph Block Argument State) :=
  ((statement s).exec meaning { g with world := { g.world with log := [] } }).map Prod.snd

end Script
end StoryPreview.Reactive
