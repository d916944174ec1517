import StoryPreview.Arguments.Basic
import StoryPreview.Theme
/-!
The values that the cells of a preview hold, and the kinds of them. Each kind can be written to a
store as JSON and read back.
-/
namespace StoryPreview

inductive Signal where
  | natural (n : Nat)
  | real (x : Double)
  | text (s : String)
  | flag (b : Bool)
  | theme (t : Theme)
  | arguments (m : Arguments)
  deriving Inhabited

namespace Signal

/-- Numeric equality on reals, the same arguments in any order, and equality on the rest. -/
def same : Signal → Signal → Bool
  | natural m, natural n => m == n
  | real x, real y => x.same y
  | text s, text t => s == t
  | flag a, flag b => a == b
  | theme s, theme t => s == t
  | arguments m, arguments n => m.same n
  | _, _ => false

def toJson : Signal → Json
  | natural n => .number (.natural n)
  | real x => .ofDouble x
  | text s => .string s
  | flag b => .bool b
  | theme t => t.toJson
  | arguments m => m.toJson

def inspect : Signal → String
  | natural n => toString n
  | real x => x.inspect
  | text s => Text.quote s
  | flag b => if b then "true" else "false"
  | theme t => t.inspect
  | arguments m => m.inspect

def asTheme : Signal → Theme
  | theme t => t
  | _ => .light

def asFlag : Signal → Bool
  | flag b => b
  | _ => false

def asArguments : Signal → Arguments
  | arguments m => m
  | _ => {}

inductive Kind where
  | natural
  | real
  | text
  | flag
  | theme
  | arguments
  deriving DecidableEq, Repr

/-- Reads a value of a kind. A natural has at most 32 bits. -/
def Kind.read : Kind → Json.Reader Signal
  | natural, c => do
    let (n, c) ← Json.readNatural32 c
    .ok (.natural n, c)
  | real, c => do
    let (x, c) ← Json.readReal c
    .ok (.real x, c)
  | text, c => do
    let (s, c) ← Json.readString c
    .ok (.text s, c)
  | flag, c => do
    let (b, c) ← Json.readBool c
    .ok (.flag b, c)
  | theme, c => do
    let (t, c) ← Theme.read Json.depthLimit c
    .ok (.theme t, c)
  | arguments, c => do
    let (m, c) ← Arguments.read c
    .ok (.arguments m, c)

def Kind.parse (k : Kind) (s : String) : Except Json.Error Signal := Json.readAll k.read s

end Signal
end StoryPreview
