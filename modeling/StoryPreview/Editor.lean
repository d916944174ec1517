import StoryPreview.Arguments.Basic
import StoryPreview.Number.Literal
/-!
The argument editor: a control for each declared argument, of the kind of its declared value, and
the values that controls give.
-/
namespace StoryPreview

inductive ControlKind where
  | checkbox
  | text
  | number
  | unsupported
  deriving DecidableEq, Repr

def ControlKind.ofArgument : Argument → ControlKind
  | .bool _ => checkbox
  | .text _ => text
  | .number _ => number
  | .null => unsupported

structure Control where
  key : String
  kind : ControlKind
  value : Argument

namespace Control

def inputId (c : Control) : String := "arg-" ++ c.key

def label (c : Control) : String := c.key ++ ":"

def unsupportedText (c : Control) : String := "Unsupported arg type (key: " ++ c.key ++ ")"

def all (declared current : Arguments) : List Control :=
  declared.entries.map fun (k, v) => ⟨k, .ofArgument v, (current.get? k).getD v⟩

end Control

inductive Input where
  | checked (on : Bool)
  | text (s : String)
  | number (s : String)
  deriving DecidableEq, Repr

namespace Input

def prefixes : List Char → List (List Char)
  | [] => []
  | c :: cs => (prefixes cs).map (c :: ·) ++ [[c]]

def occurs (word : List Char) : List Char → Bool
  | [] => word.isEmpty
  | c :: cs => word.isPrefixOf (c :: cs) || occurs word cs

/-- Whether a text is not tried as a number: it starts with infinity, or has NaN somewhere. -/
def isBarred (cs : List Char) : Bool :=
  let lower := lowerAscii cs
  "inf".toList.isPrefixOf lower || "+inf".toList.isPrefixOf lower ||
    "-inf".toList.isPrefixOf lower || occurs "nan".toList lower

def longestNumber? (cs : List Char) : Option Double :=
  (prefixes cs).findSome? fun p => if isBarred p then none else Double.read? p

/-- The number that a text starts with after blanks; zero if it starts with none. Zero has no
sign. -/
def leadingNumber (cs : List Char) : Double :=
  match longestNumber? (Text.trimStart cs) with
  | some x => if x = .nan ∨ x.isZero then .zero else x
  | none => .zero

def value : Input → Argument
  | checked on => .bool on
  | text s => .text s
  | number s => .number (leadingNumber s.toList)

end Input
end StoryPreview
