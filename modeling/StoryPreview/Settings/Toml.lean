import StoryPreview.Settings.Reader
import StoryPreview.Toml.Reader
/-!
Settings as a TOML document. Settings that are left out have their defaults, and other keys are
skipped.
-/
namespace StoryPreview.Settings

/-- The text of a setting: a string, or for a setting with named values also a table with the name
as the only key of something empty. -/
def tomlText? (key : Key) (v : Toml) : Option String :=
  match key.variants?, v with
  | none, .text s => some s
  | some known, .text s => if s ∈ known then some s else none
  | some known, .table _ [(name, content)] =>
    if name ∈ known ∧ content.isEmpty then some name else none
  | _, _ => none

def takeToml (s : Settings) (e : String × Toml) : Option Settings :=
  match Key.ofName? e.1 with
  | some key => (tomlText? key e.2).map (s.withText key)
  | none => some s

def ofTomlText (text : String) : Except Refusal Settings :=
  match Toml.parse? text with
  | some (.table _ entries) =>
    match entries.foldlM takeToml {} with
    | some s => .ok s
    | none => .error .toml
  | _ => .error .toml

end StoryPreview.Settings
