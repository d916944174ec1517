import StoryPreview.Theme
/-!
The labels of the toolbar.
-/
namespace StoryPreview

structure Labels where
  scripts : String
  theme : String
  reset : String
  deriving DecidableEq, Repr

def Labels.show (scripts : Bool) (theme : Theme) : Labels where
  scripts := "Toggle JS (Currently: " ++ (if scripts then "Enabled" else "Disabled") ++ ")"
  theme := "Toggle Theme (Current: " ++ theme.name ++ ")"
  reset := "Reset Args"

end StoryPreview
