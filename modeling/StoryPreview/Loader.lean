import StoryPreview.Document
/-!
Loading stories: a module is imported, and the export of a key gives the arguments that the story
starts with. Where the import comes to an end at once, loading is a dialogue with any document that
has modules. In a preview it may come to an end later, so there loading is also in two parts.
-/
namespace StoryPreview.Loader
open Reactive
variable {M E W : Type}

def take (path key : String) : Dialogue M E (Except Problem (Arguments × M)) := do
  match ← Dialogue.request (.fetch path) with
  | .error cause => return .error (.moduleUnavailable path cause)
  | .ok module =>
    match ← Dialogue.request (.shape module key) with
    | none => return .error (.missingExport key path (← Dialogue.request (.exports module)))
    | some shape =>
      match shape.defaultArguments with
      | .error actual => return .error (.argumentsNotObject key path actual)
      | .ok args =>
        Dialogue.sayAll shape.defaultNotes
        return .ok (args, module)

def fetch (path key : String) : Dialogue M E (Except Problem (Arguments × M)) := do
  Dialogue.say .info .story "loading story" [("path", path), ("key", key)]
  match ← take path key with
  | .ok (args, module) =>
    Dialogue.say .info .story "story loaded" [("path", path), ("key", key),
      ("args", toString args.size)]
    return .ok (args, module)
  | .error problem =>
    Dialogue.say .error .story "story load failed" [("path", path), ("key", key),
      ("error", problem.message)]
    return .error problem

def loadWith {B V : Type} (d : Document M E W) (path key : String) :
    Program B V W (Except Problem (Arguments × M)) :=
  (fetch path key).perform d

def load (path key : String) : Action (Except Problem (Arguments × Entries Story)) :=
  loadWith Preview.document path key

def start (path key : String) : Action Unit := do
  Action.say .info .story "loading story" [("path", path), ("key", key)]
  Action.note (.imported path)

def resolve (m : Module) (path key : String) : Except Problem (Arguments × List String) := do
  let stories ← m.import? path
  let story ← Module.find stories path key
  match story.defaultArguments with
  | .ok args => .ok (args, stories.keys)
  | .error actual => .error (.argumentsNotObject key path actual)

def resolveNotes (m : Module) (path key : String) : List Note :=
  match m.import? path >>= fun stories => Module.find stories path key with
  | .ok story => story.defaultNotes
  | .error _ => []

def finish (path key : String) : Action (Except Problem (Arguments × List String)) := do
  let m := (← Action.state).page.module path
  Action.sayAll (resolveNotes m path key)
  match resolve m path key with
  | .ok (args, names) =>
    Action.say .info .story "story loaded" [("path", path), ("key", key),
      ("args", toString args.size)]
    return .ok (args, names)
  | .error problem =>
    Action.say .error .story "story load failed" [("path", path), ("key", key),
      ("error", problem.message)]
    return .error problem

end StoryPreview.Loader
