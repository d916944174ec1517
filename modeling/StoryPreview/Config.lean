import StoryPreview.Arguments.Basic
import StoryPreview.Problem
import StoryPreview.Theme
/-!
The configuration that a page embeds for itself and for its frame. All of it is optional, empty
texts count as absent, and names that are no part of it are skipped. The theme is read leniently:
anything but the name of the dark theme is light. Arguments that are not an object are left out.
-/
namespace StoryPreview

structure Config where
  theme : Theme := .light
  modulePath : Option String := none
  storyKey : Option String := none
  componentName : Option String := none
  arguments : Option Arguments := none
  renderMode : Option String := none
  deriving Inhabited

namespace Config

def text? : Json → Except Json.Fault (Option String)
  | .null => .ok none
  | .string s => .ok (some s)
  | v => .error (.wrongType v.found .string)

def nonEmpty? (v : Json) : Except Json.Fault (Option String) := do
  let s ← text? v
  .ok (s.filter (· ≠ ""))

def take (config : Config) : String × Json → Except Json.Fault Config
  | ("theme", v) => do .ok { config with theme := (← text? v).elim .light Theme.ofName }
  | ("storyModulePath", v) => do .ok { config with modulePath := ← nonEmpty? v }
  | ("storyKey", v) => do .ok { config with storyKey := ← nonEmpty? v }
  | ("componentName", v) => do .ok { config with componentName := ← nonEmpty? v }
  | ("currentArgs", v) => .ok { config with arguments := Arguments.ofJson? v }
  | ("renderMode", v) => do .ok { config with renderMode := ← nonEmpty? v }
  | _ => .ok config

def entryNotes : String × Json → List Note
  | ("currentArgs", .null) => []
  | ("currentArgs", .object entries) => Arguments.jsonNotes (.object entries)
  | ("currentArgs", v) =>
    [⟨.warning, .configuration, "currentArgs is not an object, ignoring", [("value", v.text)]⟩]
  | _ => []

def parse (s : String) : Except Problem Config :=
  match Json.parse s with
  | .error e => .error (.ofJsonError e)
  | .ok (.object entries) =>
    (entries.foldlM take {}).mapError fun fault => .ofJsonError ⟨fault, none⟩
  | .ok _ => .error (.unreadable "Parsed configuration is not a valid object.")

/-- What is reported about entries up to the first that cannot be taken. -/
def entriesNotes (config : Config) : List (String × Json) → List Note
  | [] => []
  | e :: es =>
    match config.take e with
    | .ok config => entryNotes e ++ config.entriesNotes es
    | .error _ => []

def notes (s : String) : List Note :=
  match Json.parse s with
  | .ok (.object entries) => entriesNotes {} entries
  | _ => []

def target (config : Config) : Except Problem (String × String) :=
  match config.modulePath, config.storyKey with
  | some path, some key => .ok (path, key)
  | _, _ =>
    .error (.badConfiguration
      "Required story module path or story key is missing in the configuration."
      "Missing storyModulePath or storyKey in config")

def missing (config : Config) : List String :=
  (if config.modulePath.isNone then ["storyModulePath"] else []) ++
    (if config.storyKey.isNone then ["storyKey"] else []) ++
    (if config.componentName.isNone then ["componentName"] else [])

def toJson (config : Config) : Json :=
  let optional (name : String) (v : Option String) : List (String × Json) :=
    v.toList.map fun s => (name, .string s)
  .object (("theme", config.theme.toJson) :: (optional "storyModulePath" config.modulePath ++
    optional "storyKey" config.storyKey ++ optional "componentName" config.componentName ++
    (config.arguments.toList.map fun m => ("currentArgs", m.toJson)) ++
    optional "renderMode" config.renderMode))

end Config
end StoryPreview
