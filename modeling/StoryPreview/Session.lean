import StoryPreview.Journal
/-!
The session: the one frame that is managed, if any. A frame that is already managed is not
registered again.
-/
namespace StoryPreview

structure Session (F : Type) where
  managed : Option F := none
  replacements : Nat := 0
  deriving Inhabited

namespace Session
variable {F : Type} [DecidableEq F]

def isManaged (s : Session F) (frame : F) : Bool := s.managed == some frame

def manage (s : Session F) : Option F → Session F
  | none => { s with managed := none }
  | some frame =>
    if s.isManaged frame then s else { managed := some frame, replacements := s.replacements + 1 }

def manageNote (s : Session F) : Option F → Note
  | none => ⟨.error, .session, "set_managed called without a frame element", []⟩
  | some frame =>
    if s.isManaged frame then ⟨.debug, .session, "frame already managed", []⟩
    else ⟨.info, .session, "managed frame registered",
      [("replacements", toString (s.replacements + 1))]⟩

end Session
end StoryPreview
