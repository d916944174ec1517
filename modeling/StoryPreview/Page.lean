import StoryPreview.Labels
import StoryPreview.Location
import StoryPreview.Storage
import StoryPreview.Story
/-!
A page as a preview sees it: frames, elements and texts by identifier, classes, a location, modules
and a store. The page carries out calls and keeps a record of them. For each kind of call it has an
allowance, and a call beyond that is refused and changes nothing.
-/
namespace StoryPreview

abbrev FrameId := Nat

structure Frame where
  src : String := ""
  srcdoc : Option String := none
  attributes : Entries String := []
  deriving Inhabited

inductive Surface where
  | root
  | body
  deriving DecidableEq, Repr

inductive Call where
  | setSrc (frame : FrameId) (src : String)
  | setSrcdoc (frame : FrameId) (html : String)
  | setAttribute (frame : FrameId) (name value : String)
  | replaceUrl (url : String)
  | setInnerHtml (id html : String)
  | setBodyHtml (html : String)
  | setClass (surface : Surface) (name : String) (on : Bool)
  | mount (id : String) (element : Option String)
  deriving DecidableEq, Repr

inductive CallKind where
  | setSrc
  | setSrcdoc
  | setAttribute
  | replaceUrl
  | setInnerHtml
  | setBodyHtml
  | setClass
  | mount
  deriving DecidableEq, Repr

def CallKind.name : CallKind → String
  | setSrc => "set_src"
  | setSrcdoc => "set_srcdoc"
  | setAttribute => "set_attribute"
  | replaceUrl => "replace_url"
  | setInnerHtml => "set_inner_html"
  | setBodyHtml => "set_body_html"
  | setClass => "set_class"
  | mount => "mount"

def CallKind.all : List CallKind :=
  [setSrc, setSrcdoc, setAttribute, replaceUrl, setInnerHtml, setBodyHtml, setClass, mount]

def CallKind.ofName? (name : String) : Option CallKind := all.find? fun k => k.name = name

def Call.kind : Call → CallKind
  | setSrc .. => .setSrc
  | setSrcdoc .. => .setSrcdoc
  | setAttribute .. => .setAttribute
  | replaceUrl _ => .replaceUrl
  | setInnerHtml .. => .setInnerHtml
  | setBodyHtml _ => .setBodyHtml
  | setClass .. => .setClass
  | mount .. => .mount

inductive Sight where
  | labels (labels : Labels)
  | theme (theme : Theme)
  | arguments (arguments : Option Arguments)

inductive Deed where
  | called (call : Call) (refused : Bool)
  | imported (path : String)
  | rendered (key : String) (arguments : Option Json)
  | stored (key text : String) (refused : Bool)
  | reloaded
  | watched (watcher : String) (sight : Sight)

structure Page where
  frames : List Frame := []
  /-- The frame elements by identifier. -/
  frameIds : Entries FrameId := []
  texts : Entries String := []
  /-- The contents of other elements by identifier. -/
  elements : Entries String := []
  rootClasses : List String := []
  bodyClasses : List String := []
  location : Location := default
  origin : String := ""
  /-- What a source that is given to a frame is put behind. -/
  srcBase : String := ""
  modules : Entries Module := []
  /-- The paths of modules whose import does not come to an end for now. -/
  held : List String := []
  storage : Storage := {}
  allowance : CallKind → Allowance := fun _ => none
  /-- The record, latest first. -/
  deeds : List Deed := []
  deriving Inhabited

namespace Page

def note (p : Page) (d : Deed) : Page := { p with deeds := d :: p.deeds }

def allow (p : Page) (kind : CallKind) (allowance : Allowance) : Page :=
  { p with allowance := fun k => if k = kind then allowance else p.allowance k }

def frame? (p : Page) (f : FrameId) : Option Frame := p.frames[f]?

def modifyFrame (p : Page) (f : FrameId) (g : Frame → Frame) : Page :=
  { p with frames := p.frames.modify f g }

def withClass (name : String) (on : Bool) (classes : List String) : List String :=
  if on then (if name ∈ classes then classes else classes ++ [name]) else classes.filter (· ≠ name)

def obey (p : Page) : Call → Page
  | .setSrc f src => p.modifyFrame f fun x => { x with src := p.srcBase ++ src }
  | .setSrcdoc f html => p.modifyFrame f fun x => { x with srcdoc := some html }
  | .setAttribute f name value =>
    p.modifyFrame f fun x => { x with attributes := x.attributes.insert name value }
  | .replaceUrl url => { p with location := .ofUrl url }
  | .setInnerHtml id html => { p with elements := p.elements.insert id html }
  | .setBodyHtml _ => p
  | .setClass .root name on => { p with rootClasses := withClass name on p.rootClasses }
  | .setClass .body name on => { p with bodyClasses := withClass name on p.bodyClasses }
  | .mount _ _ => p

def call (p : Page) (c : Call) : Except Problem Unit × Page :=
  if (p.allowance c.kind).admits then
    (.ok (), ((p.obey c).allow c.kind (p.allowance c.kind).spent).note (.called c false))
  else (.error (.refused (c.kind.name ++ " rejected")), p.note (.called c true))

def store (p : Page) (key text : String) : Except StorageFault Unit × Page :=
  match p.storage.store key text with
  | .ok storage => (.ok (), { p with storage := storage }.note (.stored key text false))
  | .error fault => (.error fault, p.note (.stored key text true))

def load (p : Page) (key : String) : Except StorageFault (Option String) × Page :=
  let (r, storage) := p.storage.load key
  (r, { p with storage := storage })

def module (p : Page) (path : String) : Module := (p.modules.get? path).getD (.absent path)

end Page
end StoryPreview
