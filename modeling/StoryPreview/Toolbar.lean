import StoryPreview.Preview
/-!
The toolbar: arguments back to those the story declares, the other theme, and the permission of the
frame to run scripts, which stands as a word in an attribute of the frame.
-/
namespace StoryPreview
open Reactive

structure Toolbar where
  theme : CellId
  scripts : CellId
  deriving Inhabited

namespace Toolbar

/-- A toolbar for a theme. Scripts are permitted in the beginning. -/
def create (theme : CellId) : Action Toolbar := .create (.flag true) fun c => .done ⟨theme, c⟩

def attributeName : String := "sandbox"

def scriptsWord : String := "allow-scripts"

def permit (on : Bool) (words : List String) : List String :=
  if on then (if scriptsWord ∈ words then words else words ++ [scriptsWord])
  else words.filter (· ≠ scriptsWord)

def wordsOf (value : String) : List String := (Text.words value.toList).map String.ofList

def resetArguments (story : BoundStory) : Action Unit := do
  Action.put story.arguments (.arguments story.defaults)
  Action.say .info .toolbar "arguments reset to story defaults" [("key", story.key)]

def toggleTheme (t : Toolbar) : Action Theme := do
  let next := (← Action.look t.theme).asTheme.toggled
  Action.put t.theme (.theme next)
  Action.say .info .toolbar "theme toggled" [("theme", next.name)]
  return next

/-- Gives the managed frame the permission to run scripts, or takes it away, and then makes the
frame reload. False if no frame is managed. -/
def toggleScripts (t : Toolbar) (reload : Action (Except Problem Bool)) :
    Action (Except Problem Bool) := do
  let s ← Action.state
  match s.session.managed with
  | none =>
    Action.say .error .toolbar "cannot toggle scripts without a managed frame" []
    return .ok false
  | some frame =>
    let on := !(← Action.look t.scripts).asFlag
    let current := (s.page.frame? frame).bind fun f => f.attributes.get? attributeName
    let value := " ".intercalate (permit on (wordsOf (current.getD "")))
    match ← Action.call (.setAttribute frame attributeName value) with
    | .error problem => return .error problem
    | .ok () =>
      Action.put t.scripts (.flag on)
      Action.say .info .toolbar "frame sandbox updated"
        [("sandbox", value), ("scripts_enabled", if on then "true" else "false")]
      match ← reload with
      | .error problem => return .error problem
      | .ok _ => return .ok true

def labels (t : Toolbar) : Action Labels := do
  let scripts := (← Action.follow t.scripts).asFlag
  let theme := (← Action.follow t.theme).asTheme
  return .show scripts theme

end Toolbar
end StoryPreview
