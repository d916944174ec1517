import StoryPreview.Text.CharSet
import StoryPreview.Text.Utf8
/-!
Percent escapes: `%` and two hexadecimal digits stand for a byte. Escapes are written byte by byte
in upper case. The lenient reading keeps a `%` that starts no escape; `decodeComponent?` refuses it,
and bytes that are not UTF-8 too.
-/
namespace StoryPreview.Percent

def escapeByte (b : UInt8) : List Char :=
  ['%', (Nat.digitChar (b.toNat / 16)).toUpper, (Nat.digitChar (b.toNat % 16)).toUpper]

def encode (keep : Char → Bool) (cs : List Char) : List Char :=
  cs.flatMap fun c => if keep c then [c] else (String.utf8EncodeChar c).flatMap escapeByte

def bytes : List Char → List UInt8
  | [] => []
  | '%' :: a :: b :: rest =>
    match hexDigit? a, hexDigit? b with
    | some x, some y => UInt8.ofNat (16 * x + y) :: bytes rest
    | _, _ => 37 :: bytes (a :: b :: rest)
  | c :: rest => String.utf8EncodeChar c ++ bytes rest

def wellFormed : List Char → Bool
  | [] => true
  | '%' :: rest =>
    match rest with
    | a :: b :: more => (hexDigit? a).isSome && (hexDigit? b).isSome && wellFormed more
    | _ => false
  | _ :: rest => wellFormed rest

def isAlphanumeric (c : Char) : Bool :=
  ('0' ≤ c && c ≤ '9') || ('A' ≤ c && c ≤ 'Z') || ('a' ≤ c && c ≤ 'z')

def isComponentChar (c : Char) : Bool :=
  isAlphanumeric c || c ∈ ['-', '_', '.', '!', '~', '*', '\'', '(', ')']

def encodeComponent (cs : List Char) : List Char := encode isComponentChar cs

def decodeComponent? (cs : List Char) : Option (List Char) :=
  if wellFormed cs then Utf8.decode? (bytes cs) else none

end StoryPreview.Percent
