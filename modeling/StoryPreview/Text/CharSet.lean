import StoryPreview.Text.CharMap
/-!
Sets of characters, and their compact written form: hexadecimal numbers and ranges between blanks,
such as `0-1f 7f-a0 ad`.
-/
namespace StoryPreview

abbrev CharSet := CharMap Unit

namespace CharSet

def ofText (s : String) : CharSet :=
  ⟨((Text.words s.toList).map fun word =>
    let (low, high) := CharRange.readEnds word
    ⟨low, high, ()⟩).toArray⟩

def contains (s : CharSet) (c : Char) : Bool := (s.range? c).isSome

end CharSet
end StoryPreview
