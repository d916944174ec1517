import StoryPreview.Config
import StoryPreview.Loader
import StoryPreview.Panel
import StoryPreview.Settings.Basic
import StoryPreview.UrlSync
/-!
The controller of a preview. A cycle gives up what the cycle before has bound, registers the frame,
reads the configuration, and starts to load the story; when the story is there it binds it, unless a
newer cycle has started meanwhile. While a story is bound, the location of the page and the address
of the frame follow its arguments and the theme.
-/
namespace StoryPreview
open Reactive

structure Controller where
  settings : Settings
  theme : CellId
  deriving Inhabited

namespace Controller

inductive Outcome where
  | noStory
  | noModule
  | bound
  /-- A newer cycle has started. -/
  | stale
  | failed (problem : Problem)

structure Cycle where
  token : Token
  component : String
  path : String
  key : String
  mode : String

inductive Progress where
  | pending (cycle : Cycle)
  | ended (outcome : Outcome)

def addressOf (r : Route) (theme : Theme) (args : Arguments) : Address :=
  .forStory r.start r.component (some r.key) r.mode theme args

def lead (frame : FrameId) (address : Address) (origin : String) : Action Unit := do
  let current := (((← Action.state).page.frame? frame).map Frame.src).getD ""
  let src := ("src", address.text)
  match address.isSource current origin with
  | .ok true => Action.say .debug .controller "frame address unchanged, skipping reload" [src]
  | r =>
    match r with
    | .error fault =>
      Action.say .info .controller "cannot compare frame address, assigning" [src,
        ("error", fault.message)]
    | .ok _ => Action.say .info .controller "updating frame address" [src]
    match ← Action.call (.setSrc frame address.text) with
    | .ok () => return
    | .error problem =>
      Action.say .error .controller "failed to assign frame address" [src,
        ("error", problem.message)]

def follow (r : Route) : Action Unit := do
  let theme := (← Action.follow r.theme).asTheme
  let args := (← Action.follow r.arguments).asArguments
  let address := addressOf r theme args
  Action.update fun s => { s with address := some address }
  match (← Action.state).session.managed with
  | none => Action.say .warning .controller "address changed but no frame is managed" []
  | some frame => lead frame address r.origin

def unbind : Action Unit := do
  match (← Action.state).bindings with
  | none => pure ()
  | some b =>
    Action.update fun s => { s with bindings := none }
    Action.say .debug .controller "disposing previous bindings" []
    .dispose b.url (.dispose b.address (.drop b.url (.drop b.address (.done ()))))
  Action.update fun s => { s with bound := none, address := none }

def setStatus (status : Status) : Action Unit := Action.update fun s => { s with status := status }

def fail (s : Settings) (problem : Problem) : Action Outcome := do
  Action.say .error .controller "sandbox initialization failed" [("error", problem.message)]
  setStatus .failed
  match (← Action.state).session.managed with
  | none => return .failed problem
  | some frame =>
    match ← Action.call (.setSrcdoc frame (Panel.document problem.message s.errorStylesheet)) with
    | .ok () => return .failed problem
    | .error refusal =>
      Action.say .error .controller "could not display error in frame" [("error", refusal.message)]
      return .failed problem

def config (s : Settings) (page : Page) : Except Problem Config :=
  match page.texts.get? s.configId with
  | none =>
    .error (.badConfiguration (s.configId ++ " missing. Cannot load story")
      ("Cannot find #" ++ s.configId))
  | some text =>
    (Config.parse text).mapError fun problem =>
      .badConfiguration ("Invalid sandbox configuration: " ++ problem.message) problem.cause.message

def configNotes (s : Settings) (page : Page) : List Note :=
  ((page.texts.get? s.configId).map Config.notes).getD []

def manage (frame : Option FrameId) : Action Unit := do
  Action.sayAll [(← Action.state).session.manageNote frame]
  Action.update fun s => { s with session := s.session.manage frame }

def bind (c : Controller) (cycle : Cycle) (defaults : Arguments) : Action Outcome := do
  let page := (← Action.state).page
  let search := page.location.search
  Action.sayAll (Location.argumentsNotes search)
  let args := defaults.mergedWith (Location.argumentsOf search)
  .create (.arguments args) fun cell => do
    let story : BoundStory :=
      ⟨cycle.component, cycle.key, cycle.path, cycle.mode, defaults, cell⟩
    let url ← UrlSync.bind cell
    let route : Route :=
      ⟨c.settings.contentPrefix, cycle.component, cycle.key, cycle.mode, page.origin, c.theme, cell⟩
    .spawn (.followAddress route) fun address => do
      Action.update fun s => { s with bindings := some ⟨url, address⟩ }
      let size := (← Action.look cell).asArguments.size
      Action.say .info .controller "sandbox bound"
        [("component", cycle.component), ("key", cycle.key), ("args", toString size)]
      Action.update fun s => { s with bound := some story, status := .bound }
      return .bound

def finish (c : Controller) (cycle : Cycle) : Action Outcome := do
  let loaded ← Loader.finish cycle.path cycle.key
  if !((← Action.state).generation.isCurrent cycle.token) then
    Action.say .debug .controller "discarding story from a superseded cycle"
      [("path", cycle.path), ("key", cycle.key)]
    return .stale
  match loaded with
  | .error problem => fail c.settings problem
  | .ok (defaults, _) => bind c cycle defaults

def advance (c : Controller) (cycle : Cycle) : Action Progress := do
  if cycle.path ∈ (← Action.state).page.held then return .pending cycle
  else return .ended (← finish c cycle)

def resume (c : Controller) (cycle : Cycle) : Action Progress :=
  Action.inSpan (.cycle cycle.token.issued) (advance c cycle)

def begin (c : Controller) (token : Token) (config : Config) : Action Progress := do
  match config.componentName, config.modulePath, config.storyKey with
  | none, _, _ =>
    Action.say .info .controller "no componentName in config, skipping frame management" []
    setStatus .idle
    return .ended .noStory
  | some component, none, _ =>
    Action.say .info .controller "no storyModulePath in config, skipping frame management"
      [("component", component)]
    setStatus .idle
    return .ended .noModule
  | some component, some _, none =>
    return .ended (← fail c.settings (.badConfiguration
      ("Story key is missing for component '" ++ component ++ "'") "Missing storyKey in config"))
  | some component, some path, some key =>
    Loader.start path key
    advance c ⟨token, component, path, key, config.renderMode.getD c.settings.defaultRenderMode⟩

def run (c : Controller) (token : Token) : Action Progress := do
  Action.say .info .controller "initializing sandbox" []
  unbind
  setStatus .loading
  match (← Action.state).page.frameIds.get? c.settings.frameId with
  | none =>
    let problem := Problem.frameMissing c.settings.frameId
    Action.say .error .controller "cannot initialize sandbox" [("error", problem.message)]
    setStatus .failed
    return .ended (.failed problem)
  | some frame =>
    manage (some frame)
    let page := (← Action.state).page
    Action.sayAll (configNotes c.settings page)
    match config c.settings page with
    | .error problem => return .ended (← fail c.settings problem)
    | .ok config => begin c token config

def start (c : Controller) : Action Progress := do
  let (token, generation) := (← Action.state).generation.advance
  Action.update fun s => { s with generation := generation }
  Action.inSpan (.cycle token.issued) (run c token)

def reload : Action (Except Problem Bool) := do
  let s ← Action.state
  match s.address, s.session.managed with
  | none, _ =>
    Action.say .debug .controller "reload requested while unbound" []
    return .ok false
  | some _, none =>
    Action.say .warning .controller "reload requested without a managed frame" []
    return .ok false
  | some address, some frame =>
    match ← Action.call (.setSrc frame address.text) with
    | .error problem => return .error problem
    | .ok () =>
      Action.say .info .controller "frame reloaded" [("src", address.text)]
      return .ok true

def dispose : Action Unit := do
  Action.update fun s => { s with generation := s.generation.invalidate }
  unbind
  setStatus .idle

end Controller
end StoryPreview
