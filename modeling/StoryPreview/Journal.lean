/-!
The journal: what the parts of a preview report while they work. A note has a level, the part that
speaks, a text and named details; an entry adds the span in which it was written.
-/
namespace StoryPreview

inductive Level where
  | trace
  | debug
  | info
  | warning
  | error
  deriving DecidableEq, Repr

inductive Topic where
  | arguments
  | boot
  | configuration
  | controller
  | editor
  | session
  | story
  | theme
  | toolbar
  | pageUrl
  | stored
  | cell
  | effect
  | app
  | settings
  deriving DecidableEq, Repr

structure Note where
  level : Level
  topic : Topic
  text : String
  details : List (String × String)
  deriving DecidableEq, Repr

inductive Span where
  | cycle (generation : Nat)
  | boot (mount : String)
  deriving DecidableEq, Repr

structure Entry where
  span : Option Span
  note : Note
  deriving DecidableEq, Repr

end StoryPreview
