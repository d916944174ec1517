import StoryPreview.Address
import StoryPreview.Generation
import StoryPreview.Page
import StoryPreview.Reactive.Run
import StoryPreview.Session
import StoryPreview.Signal
/-!
The state of a preview beside its cells, the duties that its effects and listeners have, and the
actions over both.
-/
namespace StoryPreview
open Reactive

inductive Status where
  | idle
  | loading
  | bound
  | failed
  deriving DecidableEq, Repr, Inhabited

structure BoundStory where
  component : String
  key : String
  path : String
  mode : String
  defaults : Arguments
  arguments : CellId

structure Bindings where
  url : EffectId
  address : EffectId

structure Route where
  start : String
  component : String
  key : String
  mode : String
  origin : String
  theme : CellId
  arguments : CellId

inductive View where
  | labels
  | theme
  /-- The theme, without following it. -/
  | themeOnce
  | arguments
  deriving DecidableEq, Repr

inductive Duty where
  /-- To store each new value under a key. -/
  | store (key : String)
  /-- To put the arguments of a cell into the location of the page. -/
  | followUrl (arguments : CellId)
  /-- To lead the managed frame to the address of a story. -/
  | followAddress (route : Route)
  /-- To tell what is seen, as long as the preview is open. -/
  | watch (name : String) (view : View) (theme scripts : CellId)

structure Preview where
  page : Page := {}
  session : Session FrameId := {}
  status : Status := .idle
  generation : Generation := {}
  bindings : Option Bindings := none
  bound : Option BoundStory := none
  /-- The address that was computed last for the bound story. -/
  address : Option Address := none
  /-- Whether it has not been closed. -/
  isOpen : Bool := true
  deriving Inhabited

/-- Something that a preview does, whose cells hold values of type `V`. It gives a value of type
`α`. -/
abbrev ActionOver (V α : Type) := Program Duty V Preview α

abbrev Action (α : Type) := ActionOver Signal α

abbrev System (V : Type := Signal) := Graph Duty V Preview

namespace Action
variable {α V : Type}

def state : ActionOver V Preview := .ask .done

def update (f : Preview → Preview) : ActionOver V Unit := .change f (.done ())

def say (level : Level) (topic : Topic) (text : String) (details : List (String × String)) :
    ActionOver V Unit :=
  .report ⟨level, topic, text, details⟩ (.done ())

def sayAll : List Note → ActionOver V Unit
  | [] => .done ()
  | n :: ns => .report n (sayAll ns)

def onPage (f : Page → α × Page) : ActionOver V α :=
  .ask fun s => .change (fun s => { s with page := (f s.page).2 }) (.done (f s.page).1)

def call (c : Call) : ActionOver V (Except Problem Unit) := onPage (·.call c)

def note (d : Deed) : ActionOver V Unit := onPage fun p => ((), p.note d)

def follow (c : CellId) : ActionOver V V := .read c .done

def look (c : CellId) : ActionOver V V := .inspect c fun x => .done x.value

def put (c : CellId) (v : V) : ActionOver V Unit := .write c v (.done ())

def inSpan (span : Span) (act : ActionOver V α) : ActionOver V α :=
  .within (some span) (act.bind fun a => .within none (.done a))

end Action
end StoryPreview
