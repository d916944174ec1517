import StoryPreview.Json.Reader
/-!
The two themes of a preview.
-/
namespace StoryPreview

inductive Theme where
  | light
  | dark
  deriving DecidableEq, Repr, Inhabited

namespace Theme

def name : Theme → String
  | light => "light"
  | dark => "dark"

def toggled : Theme → Theme
  | light => dark
  | dark => light

/-- Any name but `dark` is the light theme. -/
def ofName (name : String) : Theme := if name = "dark" then dark else light

def inspect : Theme → String
  | light => "Light"
  | dark => "Dark"

def names : List String := [light.name, dark.name]

def read (depth : Nat) : Json.Reader Theme := fun c => do
  let (name, c) ← Json.readVariant names depth c
  .ok (ofName name, c)

def parse (s : String) : Except Json.Error Theme := Json.readAll (read Json.depthLimit) s

def toJson (t : Theme) : Json := .string t.name

end Theme
end StoryPreview
