import StoryPreview.Json.Basic
import StoryPreview.Text.Quoted
/-!
What can be wrong with a JSON text, and where. A fault of the syntax carries a position; a fault of
a value that was read from a tree has none.
-/
namespace StoryPreview.Json

/-- A place in a text: lines count from one, columns are bytes since the last line break. -/
structure Position where
  line : Nat
  column : Nat
  deriving DecidableEq, Repr

inductive Wanted where
  | string
  | map
  | record (name : String)
  | unit
  | variant
  | natural32
  | real
  | truth

inductive Fault where
  | endOfValue
  | endOfList
  | endOfObject
  | endOfString
  | expectedValue
  | expectedWord
  | expectedColon
  | expectedCommaOrListEnd
  | expectedCommaOrObjectEnd
  | keyNotString
  | trailingComma
  | trailingCharacters
  | invalidNumber
  | numberOutOfRange
  | invalidEscape
  | loneSurrogate
  | endOfHexEscape
  | controlCharacter
  | tooDeep
  | wrongType (found : Found) (wanted : Wanted)
  | outOfRange (found : Found) (wanted : Wanted)
  | unknownVariant (name : String) (known : List String)
  | duplicateField (name : String)
  | noVariant (type : String)

structure Error where
  fault : Fault
  position : Option Position

def Found.text : Found → String
  | .null => "null"
  | .bool true => "boolean `true`"
  | .bool false => "boolean `false`"
  | .number (.natural n) => s!"integer `{n}`"
  | .number (.negative n) => s!"integer `-{n}`"
  | .number (.real x) =>
    "floating point `" ++ String.ofList (Layout.stored.write x) ++ "`"
  | .string s => "string " ++ Text.quote s
  | .array => "sequence"
  | .object => "map"

def Wanted.text : Wanted → String
  | .string => "a string"
  | .map => "a map"
  | .record name => "struct " ++ name
  | .unit => "unit"
  | .variant => "variant identifier"
  | .natural32 => "u32"
  | .real => "f64"
  | .truth => "a boolean"

def oneOf : List String → String
  | [a] => "`" ++ a ++ "`"
  | [a, b] => "`" ++ a ++ "` or `" ++ b ++ "`"
  | names => "one of " ++ ", ".intercalate (names.map fun a => "`" ++ a ++ "`")

def Fault.text : Fault → String
  | .endOfValue => "EOF while parsing a value"
  | .endOfList => "EOF while parsing a list"
  | .endOfObject => "EOF while parsing an object"
  | .endOfString => "EOF while parsing a string"
  | .expectedValue => "expected value"
  | .expectedWord => "expected ident"
  | .expectedColon => "expected `:`"
  | .expectedCommaOrListEnd => "expected `,` or `]`"
  | .expectedCommaOrObjectEnd => "expected `,` or `\x7d`"
  | .keyNotString => "key must be a string"
  | .trailingComma => "trailing comma"
  | .trailingCharacters => "trailing characters"
  | .invalidNumber => "invalid number"
  | .numberOutOfRange => "number out of range"
  | .invalidEscape => "invalid escape"
  | .loneSurrogate => "lone leading surrogate in hex escape"
  | .endOfHexEscape => "unexpected end of hex escape"
  | .controlCharacter => "control character (\\u0000-\\u001F) found while parsing a string"
  | .tooDeep => "recursion limit exceeded"
  | .wrongType found wanted => "invalid type: " ++ found.text ++ ", expected " ++ wanted.text
  | .outOfRange found wanted => "invalid value: " ++ found.text ++ ", expected " ++ wanted.text
  | .unknownVariant name known => "unknown variant `" ++ name ++ "`, expected " ++ oneOf known
  | .duplicateField name => "duplicate field `" ++ name ++ "`"
  | .noVariant type => "data did not match any variant of untagged enum " ++ type

def Error.message (e : Error) : String :=
  match e.position with
  | some p => s!"{e.fault.text} at line {p.line} column {p.column}"
  | none => e.fault.text

end StoryPreview.Json
