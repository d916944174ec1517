import StoryPreview.Number.Spelling
import StoryPreview.OrderedMap
/-!
JSON values and their compact text. Whole numbers of 64 bits stay whole; every other number is a
double. Objects keep the order of their keys, and readers leave no key in them twice.
-/
namespace StoryPreview

inductive JsonNumber where
  /-- A whole number from zero up to below `2 ^ 64`. -/
  | natural (n : Nat)
  /-- A whole number below zero, not below `-2 ^ 63`; the field is its magnitude. -/
  | negative (n : Nat)
  | real (x : Double)
  deriving DecidableEq, Inhabited

inductive Json where
  | null
  | bool (b : Bool)
  | number (n : JsonNumber)
  | string (s : String)
  | array (items : List Json)
  | object (entries : List (String × Json))
  deriving Inhabited

namespace JsonNumber

def toDouble : JsonNumber → Double
  | natural n => .ofNat n
  | negative n => .ofQuotient true n 1
  | real x => x

def write : JsonNumber → List Char
  | natural n => Nat.toDigits 10 n
  | negative n => '-' :: Nat.toDigits 10 n
  | real x => Layout.stored.write x

end JsonNumber

namespace Json

def ofDouble (x : Double) : Json := if x.isFinite then .number (.real x) else .null

def escapeChar (c : Char) : List Char :=
  if c = '"' then ['\\', '"']
  else if c = '\\' then ['\\', '\\']
  else if c = '\x08' then ['\\', 'b']
  else if c = '\x0c' then ['\\', 'f']
  else if c = '\n' then ['\\', 'n']
  else if c = '\r' then ['\\', 'r']
  else if c = '\t' then ['\\', 't']
  else if c.toNat < 0x20 then
    ['\\', 'u', '0', '0', Nat.digitChar (c.toNat / 16), Nat.digitChar (c.toNat % 16)]
  else [c]

def writeString (s : String) : List Char := '"' :: (s.toList.flatMap escapeChar ++ ['"'])

mutual

def write : Json → List Char
  | .null => "null".toList
  | .bool b => (if b then "true" else "false").toList
  | .number n => n.write
  | .string s => writeString s
  | .array items => '[' :: (writeItems items ++ [']'])
  | .object entries => '{' :: (writeEntries entries ++ ['}'])

def writeItems : List Json → List Char
  | [] => []
  | [v] => v.write
  | v :: vs => v.write ++ ',' :: writeItems vs

def writeEntries : List (String × Json) → List Char
  | [] => []
  | [(k, v)] => writeString k ++ ':' :: v.write
  | (k, v) :: es => writeString k ++ ':' :: (v.write ++ ',' :: writeEntries es)

end

def text (v : Json) : String := String.ofList v.write

inductive Found where
  | null
  | bool (b : Bool)
  | number (n : JsonNumber)
  | string (s : String)
  | array
  | object

def found : Json → Found
  | .null => .null
  | .bool b => .bool b
  | .number n => .number n
  | .string s => .string s
  | .array _ => .array
  | .object _ => .object

end Json
end StoryPreview
