import StoryPreview.Json.Error
/-!
What can go wrong in a preview, what the user is told about it, and the technical cause below.
-/
namespace StoryPreview

structure Cause where
  message : String
  stack : Option String
  deriving DecidableEq, Repr

def Cause.ofMessage (message : String) : Cause := ⟨message, none⟩

inductive Problem where
  | moduleUnavailable (path : String) (cause : Cause)
  | missingExport (key path : String) (exports : List String)
  /-- The arguments that the story declares are not an object. -/
  | argumentsNotObject (key path actual : String)
  | notRenderable (key path : String)
  | badConfiguration (detail cause : String)
  | mountMissing (id : String)
  | frameMissing (id : String)
  | badSetup (detail : String) (cause : Cause)
  | renderFailed (key path : String) (cause : Cause)
  | refused (message : String)
  deriving DecidableEq, Repr

namespace Problem

def unreadable (cause : String) : Problem :=
  badSetup "Failed to parse sandbox configuration or a critical error occurred during setup."
    (.ofMessage cause)

def ofJsonError (e : Json.Error) : Problem := unreadable e.message

def message : Problem → String
  | moduleUnavailable path cause =>
    "Failed to load story module " ++ path ++ ". Original error: " ++ cause.message
  | missingExport key path exports =>
    "Story key '" ++ key ++ "' not found in module '" ++ path ++ "'. Available exports: " ++
      (if exports.isEmpty then "None" else ", ".intercalate exports) ++ "."
  | argumentsNotObject key path actual =>
    "Story '" ++ key ++ "' found in module '" ++ path ++
      "', but its .args is not an object: " ++ actual
  | notRenderable key path =>
    "Story '" ++ key ++ "' in module '" ++ path ++ "' is missing a valid '.render' function."
  | badConfiguration detail _ => detail
  | mountMissing id => "Core iframe structure is missing: #" ++ id ++ " not found."
  | frameMissing id => "sandbox iframe element #" ++ id ++ " not found"
  | badSetup detail _ => detail
  | renderFailed key path _ =>
    "Failed to load or render story '" ++ key ++ "' from module '" ++ path ++ "'."
  | refused message => "host error: " ++ message

def cause (p : Problem) : Cause :=
  match p with
  | moduleUnavailable _ cause | badSetup _ cause | renderFailed _ _ cause => cause
  | badConfiguration _ cause => .ofMessage cause
  | mountMissing id => .ofMessage ("Cannot find #" ++ id)
  | p => .ofMessage p.message

end Problem
end StoryPreview
