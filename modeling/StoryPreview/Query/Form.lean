import StoryPreview.Query.Percent
import StoryPreview.Text.Blank
/-!
Queries as lists of named values: `name=value` pairs between `&`, a space as `+`, other characters
than letters, digits and `* - . _` as escapes. Reading never fails: pairs that are empty are
skipped, a missing `=` means an empty value, and bytes that are not UTF-8 become U+FFFD.
-/
namespace StoryPreview.Form

def isKept (c : Char) : Bool := Percent.isAlphanumeric c || c ∈ ['*', '-', '.', '_']

def encodeText (cs : List Char) : List Char :=
  cs.flatMap fun c => if c = ' ' then ['+'] else Percent.encode isKept [c]

def decodeText (cs : List Char) : List Char :=
  Utf8.decodeLossy (Percent.bytes (cs.map fun c => if c = '+' then ' ' else c))

def writePair (p : String × String) : List Char :=
  encodeText p.1.toList ++ '=' :: encodeText p.2.toList

def write : List (String × String) → List Char
  | [] => []
  | [p] => writePair p
  | p :: ps => writePair p ++ '&' :: write ps

def readPair (cs : List Char) : String × String :=
  match Text.splitFirst? '=' cs with
  | some (name, value) => (String.ofList (decodeText name), String.ofList (decodeText value))
  | none => (String.ofList (decodeText cs), "")

def read (cs : List Char) : List (String × String) :=
  ((Text.splitOn '&' cs).filter (· ≠ [])).map readPair

end StoryPreview.Form
