import StoryPreview.Document
import StoryPreview.Settings.Basic
/-!
Theme classes: the root and the body carry the class of the theme that is applied and not that of
the other.
-/
namespace StoryPreview
variable {M E : Type}

structure ThemeClasses where
  light : String
  dark : String
  /-- The theme that was applied last, with all classes set. -/
  applied : Option Theme := none

namespace ThemeClasses

def ofSettings (s : Settings) : ThemeClasses :=
  { light := s.lightThemeClass, dark := s.darkThemeClass }

def classOf (c : ThemeClasses) : Theme → String
  | .light => c.light
  | .dark => c.dark

def changes (c : ThemeClasses) (t : Theme) : List (Surface × String × Bool) :=
  [Surface.root, .body].flatMap fun s => [(s, c.classOf t, true), (s, c.classOf t.toggled, false)]

def setAll : List (Surface × String × Bool) → Dialogue M E (Except Problem Unit)
  | [] => return .ok ()
  | (s, name, on) :: rest => do
    match ← Dialogue.request (.setClass s name on) with
    | .ok () => setAll rest
    | .error problem => return .error problem

def put (c : ThemeClasses) (t : Theme) : Dialogue M E (Except Problem Bool × ThemeClasses) := do
  if c.applied = some t then
    Dialogue.say .debug .theme "theme already applied" [("theme", t.name)]
    return (.ok false, c)
  match ← setAll (c.changes t) with
  | .ok () =>
    Dialogue.say .info .theme "theme applied" [("theme", t.name)]
    return (.ok true, { c with applied := some t })
  | .error problem => return (.error problem, c)

def apply (c : ThemeClasses) (t : Theme) : Action (Except Problem Bool × ThemeClasses) :=
  (c.put t).perform Preview.document

end ThemeClasses
end StoryPreview
