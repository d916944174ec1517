import StoryPreview.Preview
/-!
The document of a frame. A frame asks its document for elements and texts, has it write markup and
classes, imports modules through it and mounts what they render. What a frame asks and reports is a
dialogue, which leaves open who answers: a document of any kind, with a state that each request may
change.
-/
namespace StoryPreview
open Reactive

/-- What a frame asks of its document, and of a module that it has imported. `M` is the type of
modules, and `E` the type of the elements that they render. -/
inductive Request (M E : Type) where
  | present (id : String)
  | text (id : String)
  | setInnerHtml (id html : String)
  | setBodyHtml (html : String)
  | setClass (surface : Surface) (name : String) (on : Bool)
  | fetch (path : String)
  /-- What an export of a module looks like, if there is one. -/
  | shape (module : M) (key : String)
  | exports (module : M)
  /-- What an export renders with the arguments it declares, or with others laid over them. -/
  | render (module : M) (key : String) (overlay : Option Arguments)
  | mount (id : String) (element : Option E)

variable {M E W : Type}

@[reducible] def Request.Answer : Request M E → Type
  | present _ => Bool
  | text _ => Option String
  | setInnerHtml .. | setBodyHtml _ | setClass .. => Except Problem Unit
  | fetch _ => Except Cause M
  | shape .. => Option Shape
  | exports _ => List String
  | render .. => Except Cause (Option E)
  | mount .. => Except Cause Unit

/-- A document with states of type `W`: its answer to each request, and the state after it. -/
abbrev Document (M E W : Type) := (q : Request M E) → W → q.Answer × W

inductive Dialogue (M E α : Type) where
  | done (a : α)
  | tell (n : Note) (next : Dialogue M E α)
  | ask (q : Request M E) (next : q.Answer → Dialogue M E α)

namespace Dialogue
variable {α β : Type}

def bind : Dialogue M E α → (α → Dialogue M E β) → Dialogue M E β
  | done a, f => f a
  | tell n next, f => tell n (next.bind f)
  | ask q next, f => ask q fun a => (next a).bind f

instance : Monad (Dialogue M E) where
  pure := done
  bind := bind

def say (level : Level) (topic : Topic) (text : String) (details : List (String × String)) :
    Dialogue M E Unit :=
  tell ⟨level, topic, text, details⟩ (done ())

def sayAll : List Note → Dialogue M E Unit
  | [] => done ()
  | n :: ns => tell n (sayAll ns)

def request (q : Request M E) : Dialogue M E q.Answer := ask q done

def perform {B V : Type} (d : Document M E W) : Dialogue M E α → Program B V W α
  | done a => .done a
  | tell n next => .report n (next.perform d)
  | ask q next => .ask fun w => .change (fun w => (d q w).2) ((next (d q w).1).perform d)

end Dialogue

def Page.render (p : Page) (stories : Entries Story) (key : String) (overlay : Option Arguments) :
    Except Cause (Option String) × Page :=
  match stories.get? key with
  | some ⟨declared, some rendering⟩ =>
    (rendering.result, p.note (.rendered key (Story.renderArguments declared overlay)))
  | _ => (.error (.ofMessage "render is not a function"), p)

/-- A page as a document. It knows a module by its exports, and its refusal of an element has a
place. -/
def Page.document : Document (Entries Story) String Page
  | .present id, p => ((p.elements.get? id).isSome, p)
  | .text id, p => (p.texts.get? id, p)
  | .setInnerHtml id html, p => p.call (.setInnerHtml id html)
  | .setBodyHtml html, p => p.call (.setBodyHtml html)
  | .setClass surface name on, p => p.call (.setClass surface name on)
  | .fetch path, p =>
    (match p.module path with
      | .fails cause => .error cause
      | .exports stories => .ok stories,
      p.note (.imported path))
  | .shape stories key, p => ((stories.get? key).map Story.shape, p)
  | .exports stories, p => (stories.keys, p)
  | .render stories key overlay, p => p.render stories key overlay
  | .mount id element, p =>
    let (r, p) := p.call (.mount id element)
    (r.mapError fun problem => ⟨problem.message, some "at mount"⟩, p)

def Preview.document : Document (Entries Story) String Preview := fun q s =>
  let (a, page) := Page.document q s.page
  (a, { s with page := page })

end StoryPreview
