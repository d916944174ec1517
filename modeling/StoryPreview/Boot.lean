import StoryPreview.Config
import StoryPreview.Panel
import StoryPreview.ThemeClasses
/-!
The start of a frame: it takes its configuration, applies the theme and renders the story into the
mount element. The first step that fails ends it, and a panel shows the problem: in the mount
element, or in the body if there is none.
-/
namespace StoryPreview
open Reactive
variable {M E W : Type}

structure Boot where
  settings : Settings
  /-- The theme classes as earlier starts have left them. -/
  classes : ThemeClasses

namespace Boot

def ofSettings (s : Settings) : Boot := ⟨s, .ofSettings s⟩

def configMissing (s : Settings) : Problem :=
  .badConfiguration "Sandbox configuration data is missing from the iframe."
    ("Cannot find #" ++ s.configId)

def declaredNotes (shape : Shape) (key : String) : List Note :=
  match shape.defaultArguments with
  | .ok _ => shape.defaultNotes
  | .error actual =>
    [⟨.warning, .boot, "story args are not an object", [("key", key), ("actual", actual)]⟩]

def overlay (s : Settings) (c : Config) : Option Arguments :=
  match s.renderSource with
  | .configuration => c.arguments
  | .storyDefaults => none

def mount (s : Settings) (path key : String) (element : Option E) :
    Dialogue M E (Except Problem Unit) := do
  if element.isNone then
    Dialogue.say .warning .boot "render returned nothing, mounting empty" [("key", key)]
  match ← Dialogue.request (.mount s.mountId element) with
  | .error cause => return .error (.renderFailed key path cause)
  | .ok () =>
    Dialogue.say .info .boot "story rendered" [("key", key)]
    return .ok ()

def render (s : Settings) (path key : String) (extra : Option Arguments) (module : M) :
    Dialogue M E (Except Problem Unit) := do
  match ← Dialogue.request (.render module key extra) with
  | .error cause => return .error (.renderFailed key path cause)
  | .ok element => mount s path key element

def renderTarget (s : Settings) (path key : String) (extra : Option Arguments) :
    Dialogue M E (Except Problem Unit) := do
  Dialogue.say .info .boot "rendering story" [("path", path), ("key", key)]
  match ← Dialogue.request (.fetch path) with
  | .error cause => return .error (.moduleUnavailable path cause)
  | .ok module =>
    match ← Dialogue.request (.shape module key) with
    | none => return .error (.missingExport key path (← Dialogue.request (.exports module)))
    | some shape =>
      if shape.renders then
        Dialogue.sayAll (declaredNotes shape key)
        render s path key extra module
      else return .error (.notRenderable key path)

def renderConfigured (b : Boot) (c : Config) : Dialogue M E (Except Problem Unit × Boot) := do
  Dialogue.say .info .boot "initializing with embedded config" [("theme", c.theme.name)]
  match ← b.classes.put c.theme with
  | (.error problem, classes) => return (.error problem, { b with classes := classes })
  | (.ok _, classes) =>
    let b := { b with classes := classes }
    match c.target with
    | .error problem => return (.error problem, b)
    | .ok (path, key) => return (← renderTarget b.settings path key (overlay b.settings c), b)

def renderStory (b : Boot) : Dialogue M E (Except Problem Unit × Boot) := do
  match ← Dialogue.request (.text b.settings.configId) with
  | none => return (.error (configMissing b.settings), b)
  | some text =>
    Dialogue.sayAll (Config.notes text)
    match Config.parse text with
    | .error problem => return (.error problem, b)
    | .ok c => renderConfigured b c

def fill (b : Boot) : Dialogue M E (Except Problem Unit × Boot) := do
  match ← Dialogue.request (.setInnerHtml b.settings.mountId "") with
  | .error problem => return (.error problem, b)
  | .ok () => renderStory b

def showInMount (s : Settings) (problem : Problem) : Dialogue M E Unit := do
  Dialogue.say .error .boot "story failed to render"
    [("error", problem.message), ("title", problem.panelKind.title)]
  match ← Dialogue.request (.setInnerHtml s.mountId (Panel.ofProblem problem).html) with
  | .ok () => return
  | .error refusal =>
    Dialogue.say .error .boot "could not write error panel" [("error", refusal.message)]

def showInBody (problem : Problem) : Dialogue M E Unit := do
  Dialogue.say .error .boot "mount point missing" [("error", problem.message)]
  match ← Dialogue.request (.setBodyHtml (Panel.ofProblem problem).html) with
  | .ok () => return
  | .error refusal =>
    Dialogue.say .error .boot "could not write error into document body"
      [("error", refusal.message)]

def start (b : Boot) : Dialogue M E (Except Problem Unit × Boot) := do
  if ← Dialogue.request (.present b.settings.mountId) then
    let (r, next) ← fill b
    match r with
    | .ok () => return (.ok (), next)
    | .error problem =>
      showInMount b.settings problem
      return (.error problem, next)
  else
    let problem := Problem.mountMissing b.settings.mountId
    showInBody problem
    return (.error problem, b)

def runWith {B V : Type} (d : Document M E W) (b : Boot) :
    Program B V W (Except Problem Unit × Boot) :=
  .within (some (.boot b.settings.mountId))
    ((b.start.perform d).bind fun r => .within none (.done r))

def run (b : Boot) : Action (Except Problem Unit × Boot) := b.runWith Preview.document

end Boot
end StoryPreview
