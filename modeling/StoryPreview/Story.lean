import StoryPreview.Arguments.Basic
import StoryPreview.Problem
/-!
Stories and the modules that export them. A story declares arguments, which may be anything that
JSON can say or be left out, and it may have a function that renders it.
-/
namespace StoryPreview

inductive Rendering where
  | throws (cause : Cause)
  /-- It gives an element, or nothing. -/
  | gives (element : Option String)
  deriving DecidableEq, Repr

def Rendering.result : Rendering → Except Cause (Option String)
  | throws cause => .error cause
  | gives element => .ok element

structure Shape where
  declared : Option Json
  renders : Bool

namespace Shape

/-- The arguments that a story starts with, or what the declared ones are instead of an object. -/
def defaultArguments (x : Shape) : Except String Arguments :=
  match x.declared with
  | none => .error "undefined"
  | some .null => .ok {}
  | some (.bool _) => .error "boolean"
  | some (.number _) => .error "number"
  | some (.string _) => .error "string"
  | some (.array _) => .error "array"
  | some (.object entries) =>
    .ok (.ofEntries (entries.map fun (k, v) => (k, Argument.ofJson v)))

def defaultNotes (x : Shape) : List Note :=
  match x.declared with
  | some v => Arguments.jsonNotes v
  | none => []

end Shape

structure Story where
  declared : Option Json
  rendering : Option Rendering

namespace Story

def shape (s : Story) : Shape := ⟨s.declared, s.rendering.isSome⟩

def defaultArguments (s : Story) : Except String Arguments := s.shape.defaultArguments

def defaultNotes (s : Story) : List Note := s.shape.defaultNotes

/-- The value that a story is rendered with: the declared one, or the declared object with arguments
laid over it. -/
def renderArguments (declared : Option Json) (overlay : Option Arguments) : Option Json :=
  match overlay with
  | none => declared
  | some overlay =>
    let base := match declared with
      | some (.object entries) => entries
      | _ => []
    some (.object (Entries.insertAll base overlay.toJsonEntries))

end Story

inductive Module where
  | fails (cause : Cause)
  | exports (stories : Entries Story)

namespace Module

def absent (path : String) : Module :=
  .fails (.ofMessage ("Failed to fetch dynamically imported module: " ++ path))

def import? (m : Module) (path : String) : Except Problem (Entries Story) :=
  match m with
  | .fails cause => .error (.moduleUnavailable path cause)
  | .exports stories => .ok stories

def find (stories : Entries Story) (path key : String) : Except Problem Story :=
  match stories.get? key with
  | some story => .ok story
  | none => .error (.missingExport key path stories.keys)

end Module
end StoryPreview
