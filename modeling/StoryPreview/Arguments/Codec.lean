import StoryPreview.Arguments.Basic
import StoryPreview.Query.Percent
import StoryPreview.Text.Blank
/-!
The compact form of arguments in a page address: `key:token` pairs between `;`.

A token is `true`, or `!true` for false, or the spelling of a number, or a text with its escapes, or
nothing for null. Reading never fails. A token that is not a truth value is a number exactly if,
with its escapes read and trimmed, it is the spelling of one; otherwise it is a text, and a text
whose escapes are broken is kept as it stands.
-/
namespace StoryPreview.Codec

def encodeValue : Argument → List Char
  | .bool b => (if b then "true" else "!true").toList
  | .number x => x.spelling
  | .text s => Percent.encodeComponent s.toList
  | .null => []

def encodeEntry (e : String × Argument) : List Char := e.1.toList ++ ':' :: encodeValue e.2

def encodeEntries : Entries Argument → List Char
  | [] => []
  | [e] => encodeEntry e
  | e :: es => encodeEntry e ++ ';' :: encodeEntries es

def encode (m : Arguments) : List Char := encodeEntries m.entries

def truth? (token : List Char) : Option Bool :=
  if token = "true".toList ∨ token = "!false".toList then some true
  else if token = "false".toList ∨ token = "!true".toList then some false
  else none

/-- The value of a text that was a token: the number it spells, or the text. -/
def ofText (cs : List Char) : Argument :=
  match Double.ofSpelling? (Text.trim cs) with
  | some x => .number x
  | none => .text (String.ofList cs)

def decodeToken (token : List Char) : Argument :=
  match truth? token with
  | some b => .bool b
  | none => ofText ((Percent.decodeComponent? token).getD token)

inductive Segment where
  | entry (key token : List Char)
  | malformed (text : List Char)
  deriving DecidableEq, Repr

/-- Reads a part between separators; a blank part says nothing. -/
def Segment.ofText? (cs : List Char) : Option Segment :=
  match Text.splitFirst? ':' cs with
  | some (key, token) => some (.entry (Text.trim key) (Text.trim token))
  | none => if Text.trim cs = [] then none else some (.malformed cs)

def segments (cs : List Char) : List Segment := (Text.splitOn ';' cs).filterMap Segment.ofText?

def Segment.entry? : Segment → Option (String × Argument)
  | .entry key token => some (String.ofList key, decodeToken token)
  | .malformed _ => none

def Segment.notes : Segment → List Note
  | .malformed cs =>
    [⟨.warning, .arguments, "malformed arg pair skipped", [("pair", String.ofList cs)]⟩]
  | .entry _ token =>
    if (truth? token).isNone ∧ (Percent.decodeComponent? token).isNone then
      [⟨.warning, .arguments, "failed to decode URI component, keeping raw value",
        [("token", String.ofList token)]⟩]
    else []

def decode (cs : List Char) : Arguments := .ofEntries ((segments cs).filterMap Segment.entry?)

def notes (cs : List Char) : List Note := (segments cs).flatMap Segment.notes

end StoryPreview.Codec
