import StoryPreview.App
/-!
Runs of a preview: the steps that its user and its page can take, in any order, and what each step
gives. Cycles that wait, watchers, and cells of arguments are kept under names.
-/
namespace StoryPreview
open Reactive

inductive Page.Change where
  | text (id : String) (text : Option String)
  | element (id : String) (content : Option String)
  | placeFrame (id : String) (frame : Option FrameId)
  | moveTo (location : Location)
  | setSource (frame : FrameId) (src : String)
  | setAttribute (frame : FrameId) (name : String) (value : Option String)
  | module (path : String) (module : Option Module)
  /-- Imports of a path do not come to an end for now. -/
  | hold (path : String)
  | release (path : String)
  | allow (kind : CallKind) (allowance : Allowance)
  | allowReads (allowance : Allowance)
  | fill (full : Bool)
  /-- Puts a text into the store, or takes it out. -/
  | storage (key : String) (text : Option String)

def Entries.put {α : Type} (key : String) (value : Option α) (es : Entries α) : Entries α :=
  match value with
  | some v => es.insert key v
  | none => es.erase key

def Page.change (p : Page) : Page.Change → Page
  | .text id text => { p with texts := p.texts.put id text }
  | .element id content => { p with elements := p.elements.put id content }
  | .placeFrame id frame => { p with frameIds := p.frameIds.put id frame }
  | .moveTo location => { p with location := location }
  | .setSource f src => p.modifyFrame f fun x => { x with src := src }
  | .setAttribute f name value =>
    p.modifyFrame f fun x => { x with attributes := x.attributes.put name value }
  | .module path m => { p with modules := p.modules.put path m }
  | .hold path => { p with held := path :: p.held }
  | .release path => { p with held := p.held.filter (· ≠ path) }
  | .allow kind allowance => p.allow kind allowance
  | .allowReads allowance => { p with storage := { p.storage with reads := allowance } }
  | .fill full => { p with storage := { p.storage with full := full } }
  | .storage key text =>
    { p with storage := { p.storage with entries := p.storage.entries.put key text } }

def Action.changePage (c : Page.Change) : Action Unit := Action.onPage fun p => ((), p.change c)

namespace App

inductive Use where
  /-- Starts a cycle, and gives it up if it has to wait. -/
  | visit
  /-- Starts a cycle and keeps it, if it has to wait, in place of the one of that name. -/
  | start (cycle : String)
  | edit (key : String) (input : Input)
  | reset
  | toggleTheme
  | toggleScripts
  | reload
  | dispose
  | unmanage
  | controls
  | labels
  | settings
  | bound
  /-- Keeps the cell with the arguments of the bound story. -/
  | keep (name : String)
  | watch (name : String) (view : View)

inductive Step where
  | use (u : Use)
  | page (c : Page.Change)
  | resume (cycle : String)
  | setTheme (t : Theme)
  | setArguments (name : String) (args : Arguments)
  | unwatch (name : String)
  | close

inductive Reply where
  | nothing
  | closed
  | unknown
  | abandoned
  | pending
  | ended (outcome : Controller.Outcome)
  | flag (b : Bool)
  | theme (t : Theme)
  | attempt (r : Except Problem Bool)
  | controls (cs : List Control)
  | labels (l : Labels)
  | settings (s : Settings)
  | story (s : BoundStory) (x : CellView Signal)
  | cell (x : CellView Signal)

structure Desk where
  app : App
  cycles : Entries Controller.Cycle := []
  watchers : Entries EffectId := []
  kept : Entries CellId := []

namespace Desk

def ofProgress (d : Desk) (name : String) : Controller.Progress → Reply × Desk
  | .pending c => (.pending, { d with cycles := d.cycles.insert name c })
  | .ended o => (.ended o, { d with cycles := d.cycles.erase name })

def use (d : Desk) : Use → Action (Reply × Desk)
  | .visit => do
    match ← d.app.controller.start with
    | .pending _ => return (.abandoned, d)
    | .ended o => return (.ended o, d)
  | .start name =>
    return { d with cycles := d.cycles.erase name }.ofProgress name (← d.app.controller.start)
  | .edit key input => return (.flag (← editBound key input), d)
  | .reset => return (.flag (← resetBound), d)
  | .toggleTheme => return (.theme (← d.app.toggleTheme), d)
  | .toggleScripts => return (.attempt (← d.app.toggleScripts), d)
  | .reload => return (.attempt (← Controller.reload), d)
  | .dispose => do
    Controller.dispose
    return (.nothing, d)
  | .unmanage => do
    Controller.manage none
    return (.nothing, d)
  | .controls => return (.controls (← App.controls), d)
  | .labels => return (.labels (← d.app.toolbar.labels), d)
  | .settings => return (.settings d.app.controller.settings, d)
  | .bound => do
    match (← Action.state).bound with
    | none => return (.nothing, d)
    | some s => .inspect s.arguments fun x => return (.story s x, d)
  | .keep name => do
    match (← Action.state).bound with
    | none => return (.flag false, d)
    | some s => return (.flag true, { d with kept := d.kept.insert name s.arguments })
  | .watch name view => do
    let e ← d.app.watch name view
    match d.watchers.get? name with
    | some old => .drop old (return (.nothing, { d with watchers := d.watchers.insert name e }))
    | none => return (.nothing, { d with watchers := d.watchers.insert name e })

/-- Takes a step. What needs an open preview does nothing with a closed one. -/
def step (d : Desk) : Step → Action (Reply × Desk)
  | .use u => do
    if (← Action.state).isOpen then d.use u else return (.closed, d)
  | .page c => do
    Action.changePage c
    return (.nothing, d)
  | .resume name => do
    match d.cycles.get? name with
    | none => return (.unknown, d)
    | some c => return d.ofProgress name (← d.app.controller.resume c)
  | .setTheme t => do
    d.app.theme.set (.theme t)
    return (.nothing, d)
  | .setArguments name args => do
    match d.kept.get? name with
    | none => return (.unknown, d)
    | some c =>
      Action.put c (.arguments args)
      .inspect c fun x => return (.cell x, d)
  | .unwatch name => do
    match d.watchers.get? name with
    | none => return (.nothing, d)
    | some e => .drop e (return (.nothing, { d with watchers := d.watchers.erase name }))
  | .close => do
    if (← Action.state).isOpen then
      d.app.close
      return (.nothing, { d with cycles := [] })
    else return (.nothing, d)

end Desk
end App
end StoryPreview
