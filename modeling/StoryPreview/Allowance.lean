/-!
An allowance bounds how many more calls of one kind succeed. Calls that are refused do not use it
up.
-/
namespace StoryPreview

/-- How many more calls succeed; without a number all do. -/
abbrev Allowance := Option Nat

namespace Allowance

def admits : Allowance → Bool
  | some 0 => false
  | _ => true

def spent : Allowance → Allowance
  | some n => some (n - 1)
  | none => none

end Allowance
end StoryPreview
