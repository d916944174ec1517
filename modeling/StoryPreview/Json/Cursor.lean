import StoryPreview.Json.Error
import StoryPreview.Number.Literal
import StoryPreview.Text.Utf8
/-!
Places while reading a JSON text, and its lexical parts: blanks, words, numbers and strings.

A number is read with the digits that fit 64 bits; its decimal exponent is then applied by one
multiplication or division with a power of ten, so a double is not always the nearest one.
-/
namespace StoryPreview.Json

structure Cursor where
  rest : List Char
  line : Nat
  column : Nat

/-- Why reading stopped. A loose fault belongs to a value whose container has yet to say where. -/
inductive Stop where
  | placed (fault : Fault) (position : Position)
  | loose (fault : Fault) (cursor : Cursor)

namespace Cursor

def start (s : String) : Cursor := ⟨s.toList, 1, 0⟩

def position (c : Cursor) : Position := ⟨c.line, c.column⟩

def bump (p : Position) (b : UInt8) : Position :=
  if b == 10 then ⟨p.line + 1, 0⟩ else ⟨p.line, p.column + 1⟩

def ahead (c : Cursor) (n : Nat) : Position :=
  ((Utf8.encode (c.rest.take n)).take n).foldl bump c.position

def next (c : Cursor) (head : Char) (rest : List Char) : Cursor :=
  if head = '\n' then ⟨rest, c.line + 1, 0⟩ else ⟨rest, c.line, c.column + head.utf8Size⟩

def tail (c : Cursor) : Cursor :=
  match c.rest with
  | [] => c
  | d :: rest => c.next d rest

def skip (c : Cursor) (n : Nat) : Cursor := ⟨c.rest.drop n, c.line, c.column + n⟩

def fail {α : Type} (c : Cursor) (fault : Fault) : Except Stop α :=
  .error (.placed fault c.position)

/-- Fails at the next byte, counting it, or at the end of the text. -/
def failNext {α : Type} (c : Cursor) (fault : Fault) : Except Stop α :=
  .error (.placed fault (c.ahead 1))

def isBlank (c : Char) : Bool := c == ' ' || c == '\n' || c == '\t' || c == '\r'

def skipBlanksOf : List Char → Nat → Nat → Cursor
  | [], line, column => ⟨[], line, column⟩
  | d :: rest, line, column =>
    if d == '\n' then skipBlanksOf rest (line + 1) 0
    else if isBlank d then skipBlanksOf rest line (column + 1)
    else ⟨d :: rest, line, column⟩

def skipBlanks (c : Cursor) : Cursor := skipBlanksOf c.rest c.line c.column

def readWord : List Char → Cursor → Except Stop Cursor
  | [], c => .ok c
  | expected :: more, c =>
    match c.rest with
    | [] => c.fail .endOfValue
    | d :: rest => if d = expected then readWord more (c.next d rest) else c.failNext .expectedWord

def gather (limit : Nat) (n : Nat) : List Char → Nat × List Char
  | [] => (n, [])
  | d :: ds =>
    let next := 10 * n + (d.toNat - 48)
    if next ≤ limit then gather limit next ds else (n, d :: ds)

/-- A significand scaled by a power of ten, with one rounding for each factor of at most `10 ^ 308`;
none when it is too large. -/
def scale (x : Double) (exponent : Int) : Option Double :=
  if exponent.natAbs ≤ 308 then
    if 0 ≤ exponent then
      let y := x.mulTenPow exponent.natAbs
      if y.isFinite then some y else none
    else some (x.divTenPow exponent.natAbs)
  else if x.isZero then some x
  else if 0 ≤ exponent then none
  else scale (x.divTenPow 308) (exponent + 308)
termination_by (-exponent).toNat
decreasing_by omega

def naturalLimit : Nat := Nat.pow 2 64 - 1

def exponentLimit : Nat := Nat.pow 2 31 - 1

def realNumber (negative : Bool) (significand : Nat) (exponent : Int) (c : Cursor) :
    Except Stop (JsonNumber × Cursor) :=
  match scale (.ofNat significand) exponent with
  | some x => .ok (.real (if negative then x.neg else x), c)
  | none => c.fail .numberOutOfRange

def exponentPart (negative : Bool) (significand : Nat) (exponent : Int) (c : Cursor) :
    Except Stop (JsonNumber × Cursor) :=
  let c := c.skip 1
  let (below, c) := match c.rest with
    | '+' :: _ => (false, c.skip 1)
    | '-' :: _ => (true, c.skip 1)
    | _ => (false, c)
  match c.rest with
  | [] => c.fail .endOfValue
  | _ =>
    let ds := c.rest.takeWhile isDigit
    if ds = [] then c.failNext .invalidNumber
    else
      match gather exponentLimit 0 ds with
      | (e, []) =>
        realNumber negative significand (if below then exponent - e else exponent + e)
          (c.skip ds.length)
      | (_, left) =>
        if significand ≠ 0 ∧ !below then
          (c.skip (ds.length - left.length + 1)).fail .numberOutOfRange
        else
          .ok (.real (.finite negative .zero), c.skip ds.length)

def afterDigits (negative : Bool) (significand : Nat) (exponent : Int) (c : Cursor) :
    Except Stop (JsonNumber × Cursor) :=
  match c.rest with
  | 'e' :: _ | 'E' :: _ => exponentPart negative significand exponent c
  | _ => realNumber negative significand exponent c

def readNumber (negative : Bool) (c : Cursor) : Except Stop (JsonNumber × Cursor) :=
  match c.rest with
  | [] => c.fail .endOfValue
  | first :: more =>
    if !isDigit first then c.failNext .invalidNumber
    else if first = '0' ∧ (more.takeWhile isDigit ≠ []) then (c.skip 1).failNext .invalidNumber
    else
      let ds := c.rest.takeWhile isDigit
      let (significand, left) := gather naturalLimit 0 ds
      let c := c.skip ds.length
      match c.rest with
      | '.' :: _ =>
        let c := c.skip 1
        match c.rest with
        | [] => c.fail .endOfValue
        | _ =>
          let fs := c.rest.takeWhile isDigit
          if fs = [] then c.failNext .invalidNumber
          else
            let (significand, unread) := gather naturalLimit significand fs
            let exponent : Int := left.length - (fs.length - unread.length : Nat)
            afterDigits negative significand exponent (c.skip fs.length)
      | 'e' :: _ | 'E' :: _ => exponentPart negative significand left.length c
      | _ =>
        if left ≠ [] then realNumber negative significand left.length c
        else if !negative then .ok (.natural significand, c)
        else if 0 < significand ∧ significand ≤ Nat.pow 2 63 then .ok (.negative significand, c)
        else .ok (.real (Double.ofNat significand).neg, c)

def hexEscape (c : Cursor) : Except Stop (Nat × Cursor) :=
  match c.rest with
  | w :: x :: y :: z :: _ =>
    match hexDigit? w, hexDigit? x, hexDigit? y, hexDigit? z with
    | some w, some x, some y, some z => .ok (((w * 16 + x) * 16 + y) * 16 + z, c.skip 4)
    | _, _, _, _ => .error (.placed .invalidEscape (c.ahead 4))
  | rest =>
    if 4 ≤ (Utf8.encode rest).length then .error (.placed .invalidEscape (c.ahead 4))
    else .error (.placed .endOfString (c.ahead 4))

def pairMark (expected : Char) (c : Cursor) : Except Stop Cursor :=
  match c.rest with
  | [] => c.fail .endOfString
  | d :: rest => if d = expected then .ok (c.next d rest) else c.failNext .endOfHexEscape

/-- The character of an escape by number. Numbers above U+FFFF take two escapes. -/
def numberedEscape (c : Cursor) : Except Stop (Char × Cursor) := do
  let (n, c) ← hexEscape c
  if 0xDC00 ≤ n ∧ n ≤ 0xDFFF then c.fail .loneSurrogate
  else if n < 0xD800 ∨ 0xDBFF < n then .ok (Char.ofNat n, c)
  else
    let c ← pairMark '\\' c
    let c ← pairMark 'u' c
    let (low, c) ← hexEscape c
    if low < 0xDC00 ∨ 0xDFFF < low then c.fail .loneSurrogate
    else .ok (Char.ofNat (0x10000 + (n - 0xD800) * 0x400 + (low - 0xDC00)), c)

def simpleEscape? (d : Char) : Option Char :=
  if d = '"' ∨ d = '\\' ∨ d = '/' then some d
  else if d = 'b' then some '\x08'
  else if d = 'f' then some '\x0c'
  else if d = 'n' then some '\n'
  else if d = 'r' then some '\r'
  else if d = 't' then some '\t'
  else none

def escape (c : Cursor) : Except Stop (Char × Cursor) :=
  match c.rest with
  | [] => c.fail .endOfString
  | d :: rest =>
    match simpleEscape? d with
    | some e => .ok (e, c.next d rest)
    | none => if d = 'u' then numberedEscape (c.next d rest) else c.failNext .invalidEscape

/-- The characters of a string, behind its opening mark, and the cursor behind its closing one. The
number bounds the characters read. -/
def stringBody : Nat → Cursor → Except Stop (List Char × Cursor)
  | 0, c => c.fail .endOfString
  | fuel + 1, c =>
    match c.rest with
    | [] => c.fail .endOfString
    | d :: rest =>
      if d = '"' then .ok ([], c.next d rest)
      else if d = '\\' then do
        let (e, c) ← escape (c.next d rest)
        let (es, c) ← stringBody fuel c
        .ok (e :: es, c)
      else if d.toNat < 0x20 then c.failNext .controlCharacter
      else do
        let (ds, c) ← stringBody fuel (c.next d rest)
        .ok (d :: ds, c)

def readString (c : Cursor) : Except Stop (String × Cursor) := do
  let (cs, c) ← stringBody (c.rest.length + 1) c
  .ok (String.ofList cs, c)

end Cursor
end StoryPreview.Json
