import StoryPreview.Controller
import StoryPreview.Editor
import StoryPreview.Stored
import StoryPreview.Toolbar
/-!
The preview as a whole: a controller, its toolbar, and a theme that is kept in the store.
-/
namespace StoryPreview
open Reactive

structure App where
  controller : Controller
  toolbar : Toolbar
  theme : Stored

namespace App

def create (s : Settings) : Action App := do
  let theme ← Stored.create .theme s.themeStorageKey (.theme s.defaultTheme)
  let toolbar ← Toolbar.create theme.cell
  return ⟨⟨s, theme.cell⟩, toolbar, theme⟩

def edit (arguments : CellId) (key : String) (input : Input) : Action Unit := do
  Action.say .debug .editor "argument edited" [("key", key), ("value", input.value.display)]
  let current := (← Action.look arguments).asArguments
  Action.put arguments (.arguments (current.insert key input.value))

def editBound (key : String) (input : Input) : Action Bool := do
  match (← Action.state).bound with
  | none =>
    Action.say .warning .app "argument edit while no story is bound" [("key", key)]
    return false
  | some story =>
    edit story.arguments key input
    return true

def resetBound : Action Bool := do
  match (← Action.state).bound with
  | none =>
    Action.say .warning .app "reset requested while no story is bound" []
    return false
  | some story =>
    Toolbar.resetArguments story
    return true

def controls : Action (List Control) := do
  match (← Action.state).bound with
  | none => return []
  | some story => return Control.all story.defaults (← Action.look story.arguments).asArguments

def toggleTheme (a : App) : Action Theme := a.toolbar.toggleTheme

def toggleScripts (a : App) : Action (Except Problem Bool) :=
  a.toolbar.toggleScripts Controller.reload

def close (a : App) : Action Unit := do
  Action.update fun s => { s with isOpen := false }
  Controller.unbind
  a.theme.close

def see (toolbar : Toolbar) : View → Action Sight
  | .labels => return .labels (← toolbar.labels)
  | .theme => return .theme (← Action.follow toolbar.theme).asTheme
  | .themeOnce => return .theme (← Action.look toolbar.theme).asTheme
  | .arguments => do
    match (← Action.state).bound with
    | none => return .arguments none
    | some story => return .arguments (some (← Action.follow story.arguments).asArguments)

def tell (name : String) (toolbar : Toolbar) (view : View) : Action Unit := do
  if (← Action.state).isOpen then
    let sight ← see toolbar view
    Action.note (.watched name sight)

def watch (a : App) (name : String) (view : View) : Action EffectId :=
  .spawn (.watch name view a.toolbar.theme a.toolbar.scripts) .done

def meaning : Meaning Duty Signal Preview where
  same := Signal.same
  body
    | .store _ => return
    | .followUrl arguments => UrlSync.follow arguments
    | .followAddress route => Controller.follow route
    | .watch name view theme scripts => tell name ⟨theme, scripts⟩ view
  reaction duty v := match duty with
    | .store key => Stored.write key v
    | _ => return

def perform {α : Type} (act : Action α) (s : System) : Option (α × System) := act.exec meaning s

end App
end StoryPreview
