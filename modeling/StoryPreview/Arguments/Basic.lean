import StoryPreview.Journal
import StoryPreview.Json.Reader
/-!
Story arguments: scalar values under text keys, in order of insertion. A nested JSON value is not an
argument; it is taken as its JSON text.
-/
namespace StoryPreview

inductive Argument where
  | bool (b : Bool)
  | number (x : Double)
  | text (s : String)
  | null
  deriving DecidableEq, Inhabited

abbrev Arguments := OrderedMap Argument

namespace Argument

def same : Argument → Argument → Bool
  | bool a, bool b => a == b
  | number x, number y => x.same y
  | text s, text t => s == t
  | null, null => true
  | _, _ => false

def ofJson : Json → Argument
  | .null => null
  | .bool b => bool b
  | .number n => number n.toDouble
  | .string s => text s
  | v => text v.text

/-- The JSON value; numbers that JSON cannot write become null. -/
def toJson : Argument → Json
  | bool b => .bool b
  | number x => .ofDouble x
  | text s => .string s
  | null => .null

def jsonNotes (v : Json) : List Note :=
  match v with
  | .array _ | .object _ =>
    [⟨.warning, .arguments, "nested argument flattened to JSON text", [("value", v.text)]⟩]
  | _ => []

def typeName : Argument → String
  | bool _ => "boolean"
  | number _ => "number"
  | text _ => "string"
  | null => "null"

def display : Argument → String
  | bool b => if b then "true" else "false"
  | number x => String.ofList x.spelling
  | text s => s
  | null => "null"

def inspect : Argument → String
  | bool b => "Bool(" ++ (if b then "true" else "false") ++ ")"
  | number x => "Number(" ++ x.inspect ++ ")"
  | text s => "Text(" ++ Text.quote s ++ ")"
  | null => "Null"

/-- Reads a scalar of a JSON text; a list or an object is none of the kinds of argument. -/
def read (depth : Nat) : Json.Reader Argument := fun c => do
  let (v, c) ← Json.readValue depth c
  match v with
  | .array _ | .object _ => .error (.loose (.noVariant "ArgValue") c)
  | v => .ok (ofJson v, c)

end Argument

namespace Arguments

/-- The same keys with the same values, in any order. -/
def same (a b : Arguments) : Bool := a.agrees Argument.same b

instance : BEq Arguments := ⟨same⟩

def ofEntries (es : Entries Argument) : Arguments := OrderedMap.ofEntries es

def ofJson? : Json → Option Arguments
  | .object entries => some (ofEntries (entries.map fun (k, v) => (k, Argument.ofJson v)))
  | _ => none

def jsonNotes : Json → List Note
  | .object entries => entries.flatMap fun (_, v) => Argument.jsonNotes v
  | _ => []

def toJsonEntries (m : Arguments) : Entries Json := m.entries.map fun (k, v) => (k, v.toJson)

def toJson (m : Arguments) : Json := .object m.toJsonEntries

def inspect (m : Arguments) : String :=
  "ArgMap(\x7b" ++ ", ".intercalate (m.entries.map fun (k, v) =>
    Text.quote k ++ ": " ++ v.inspect) ++ "\x7d)"

def read : Json.Reader Arguments := fun c => do
  let (entries, c) ← Json.readMap Argument.read Json.depthLimit c
  .ok (ofEntries entries, c)

def parse (s : String) : Except Json.Error Arguments := Json.readAll read s

end Arguments
end StoryPreview
