import StoryPreview.Arguments.Basic
import StoryPreview.Query.Form
import StoryPreview.Theme
import StoryPreview.Url.Basic
/-!
Addresses of the preview frame: a path of component and story, and parameters for the render mode,
the theme and each argument. An address is compared with the source that a frame has: the same path,
and the same parameters in any order.
-/
namespace StoryPreview

structure Address where
  path : String
  params : List (String × String)
  deriving DecidableEq, Repr

namespace Address

/-- Gives a parameter its value: in the place of the first of that name, whose others are left out,
or at the end. -/
def setParams (name value : String) (params : List (String × String)) : List (String × String) :=
  match params with
  | [] => [(name, value)]
  | (k, v) :: rest =>
    if k = name then (name, value) :: rest.filter (fun p => p.1 ≠ name)
    else (k, v) :: setParams name value rest

def setParam (a : Address) (name value : String) : Address :=
  { a with params := setParams name value a.params }

/-- The path of a story; an empty key counts as none. -/
def storyPath (start component : String) (key : Option String) : String :=
  String.ofList (Text.dropEndWhile (· == '/') start.toList) ++ "/" ++ component ++
    match key.filter (· ≠ "") with
    | some key => "/" ++ key
    | none => ""

/-- The address of a story. An argument that is named like another parameter takes its place. -/
def forStory (start component : String) (key : Option String) (mode : String) (theme : Theme)
    (args : Arguments) : Address :=
  args.entries.foldl (fun a (k, v) => a.setParam k v.display)
    ((Address.mk (storyPath start component key) []).setParam "renderMode" mode
      |>.setParam "theme" theme.name)

def query (a : Address) : String := String.ofList (Form.write a.params)

def text (a : Address) : String := a.path ++ "?" ++ a.query

/-- Where a source leads. An empty one leads nowhere, and a relative one is taken at an origin. -/
def locate (src origin : String) : Except Url.Fault Url :=
  let src := if src = "" then "about:blank" else src
  match Url.parse src with
  | .error .noBase => do
    let base ← Url.parse origin
    base.join src
  | r => r

def isAt (a : Address) (url : Url) : Bool :=
  String.ofList url.path = a.path && (Form.read (url.query.getD [])).isPerm a.params

def isSource (a : Address) (src origin : String) : Except Url.Fault Bool :=
  (locate src origin).map a.isAt

end Address
end StoryPreview
