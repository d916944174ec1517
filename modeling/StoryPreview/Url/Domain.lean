import StoryPreview.Query.Percent
import StoryPreview.Text.Composition
import StoryPreview.Text.Joining
import StoryPreview.Url.DomainMapping
import StoryPreview.Url.Punycode
/-!
Domains of web URLs, given as bytes of UTF-8. Their characters are mapped and composed before
anything else is asked. A label may have characters beyond ASCII, in the open or encoded after the
mark `xn--`; its text starts with a letter, has its joiners at home, and is readable.
-/
namespace StoryPreview.Url

def isForbiddenDomainChar (c : Char) : Bool :=
  c.toNat ≤ 0x20 || c == '\x7f' ||
    c ∈ ['%', '#', '/', ':', '<', '>', '?', '@', '[', '\\', ']', '^', '|']

def domainText? (bytes : List UInt8) : Option (List Char) := do
  let text := Text.compose (← (← Utf8.decode? bytes).mapM mapChar?).flatten
  if text.any isForbiddenDomainChar then none else some text

def beyondAscii (cs : List Char) : Bool := cs.any (128 ≤ ·.toNat)

/-- Whether an encoded label could not be written otherwise: it has characters beyond ASCII, each
character stands for itself, and the text is composed. -/
def isPlainText (cs : List Char) : Bool :=
  beyondAscii cs && cs.all (fun c => mapChar? c == some [c]) && Text.compose cs == cs

def maxCodeLength : Nat := 2000

def maxTextLength : Nat := 1000

def labelText? (label : List Char) : Option (List Char) :=
  match label with
  | 'x' :: 'n' :: '-' :: '-' :: code =>
    if maxCodeLength < code.length then none else (Punycode.decode? code).filter isPlainText
  | _ => some label

def isLabel (cs : List Char) : Bool :=
  !cs.head?.any Text.marks.contains && Text.joinersFit [] cs &&
    !(beyondAscii cs && maxTextLength < cs.length)

/-- The labels of a domain of ASCII letters, digits and hyphens, if none is encoded. Capitals are
the only ones of these characters that are mapped, and none is a mark, a joiner, or written from
right to left. -/
def plainLabels? (bytes : List UInt8) : Option (List (List Char)) :=
  let labels := Text.splitOn '.' (bytes.map fun b => (Char.ofNat b.toNat).toLower)
  let isPlain := fun label : List Char =>
    label.all (fun c => Percent.isAlphanumeric c || c == '-') &&
      !(['x', 'n', '-', '-'].isPrefixOf label)
  if labels.all isPlain then some labels else none

def domainLabels? (bytes : List UInt8) : Option (List (List Char)) := do
  if let some labels := plainLabels? bytes then return labels
  let labels := Text.splitOn '.' (← domainText? bytes)
  let texts ← labels.mapM labelText?
  if !texts.all isLabel then none
  else if texts.any (·.any Text.turns) && !texts.all Text.isReadable then none
  else some labels

end StoryPreview.Url
