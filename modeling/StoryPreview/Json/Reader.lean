import StoryPreview.Json.Cursor
/-!
Reading JSON texts: whole values, values of a known type, and values that are skipped.

Nesting is limited: of `depthLimit` brackets inside each other the last is refused. A reader of a
known type that finds another type consumes a scalar first, but no bracket. A fault that the
consumer of a list or an object finds is placed behind an attempt to read the closing bracket.
-/
namespace StoryPreview.Json

def depthLimit : Nat := 128

abbrev Reader (α : Type) := Cursor → Except Stop (α × Cursor)

namespace Cursor

def awaitValue (c : Cursor) : Except Stop (Char × Cursor) :=
  let c := c.skipBlanks
  match c.rest with
  | [] => c.fail .endOfValue
  | d :: _ => .ok (d, c)

/-- In a list: past a comma if this is not the first item; whether another item follows. -/
def nextItem (first : Bool) (c : Cursor) : Except Stop (Bool × Cursor) :=
  let c := c.skipBlanks
  match c.rest with
  | [] => c.fail .endOfList
  | d :: _ =>
    if d = ']' then .ok (false, c)
    else if first then .ok (true, c)
    else if d = ',' then
      let c := c.tail.skipBlanks
      match c.rest with
      | [] => c.fail .endOfValue
      | ']' :: _ => c.failNext .trailingComma
      | _ => .ok (true, c)
    else c.failNext .expectedCommaOrListEnd

def nextKey (first : Bool) (c : Cursor) : Except Stop (Bool × Cursor) :=
  let c := c.skipBlanks
  match c.rest with
  | [] => c.fail .endOfObject
  | d :: _ =>
    if d = '}' then .ok (false, c)
    else if first then (if d = '"' then .ok (true, c) else c.failNext .keyNotString)
    else if d = ',' then
      let c := c.tail.skipBlanks
      match c.rest with
      | [] => c.fail .endOfValue
      | '"' :: _ => .ok (true, c)
      | '}' :: _ => c.failNext .trailingComma
      | _ => c.failNext .keyNotString
    else c.failNext .expectedCommaOrObjectEnd

def colon (c : Cursor) : Except Stop Cursor :=
  let c := c.skipBlanks
  match c.rest with
  | [] => c.fail .endOfObject
  | ':' :: _ => .ok c.tail
  | _ => c.failNext .expectedColon

def closeList (c : Cursor) : Except Stop Cursor :=
  let c := c.skipBlanks
  match c.rest with
  | [] => c.fail .endOfList
  | ']' :: _ => .ok c.tail
  | ',' :: _ =>
    let c := c.tail.skipBlanks
    match c.rest with
    | ']' :: _ => c.failNext .trailingComma
    | _ => c.failNext .trailingCharacters
  | _ => c.failNext .trailingCharacters

def closeObject (c : Cursor) : Except Stop Cursor :=
  let c := c.skipBlanks
  match c.rest with
  | [] => c.fail .endOfObject
  | '}' :: _ => .ok c.tail
  | ',' :: _ => c.failNext .trailingComma
  | _ => c.failNext .trailingCharacters

def afterList (c : Cursor) : Cursor :=
  let c := c.skipBlanks
  match c.rest with
  | ']' :: _ => c.tail
  | ',' :: _ => c.tail.skipBlanks
  | _ => c

def afterObject (c : Cursor) : Cursor :=
  let c := c.skipBlanks
  match c.rest with
  | '}' :: _ => c.tail
  | _ => c

end Cursor

def Stop.place (move : Cursor → Cursor) : Stop → Stop
  | .placed fault p => .placed fault p
  | .loose fault c => .placed fault (move c).position

def inList {α : Type} (content : Except Stop (α × Cursor)) : Except Stop (α × Cursor) :=
  match content with
  | .ok (x, c) => c.closeList.map fun c => (x, c)
  | .error stop => .error (stop.place Cursor.afterList)

def inObject {α : Type} (content : Except Stop (α × Cursor)) : Except Stop (α × Cursor) :=
  match content with
  | .ok (x, c) => c.closeObject.map fun c => (x, c)
  | .error stop => .error (stop.place Cursor.afterObject)

def readItems (item : Reader Json) : Nat → Bool → Cursor → Except Stop (List Json × Cursor)
  | 0, _, c => c.fail .endOfList
  | fuel + 1, first, c => do
    let (more, c) ← c.nextItem first
    if more then
      let (v, c) ← item c
      let (vs, c) ← readItems item fuel false c
      .ok (v :: vs, c)
    else .ok ([], c)

def readEntries {α : Type} (item : Reader α) :
    Nat → Bool → Cursor → Except Stop (List (String × α) × Cursor)
  | 0, _, c => c.fail .endOfObject
  | fuel + 1, first, c => do
    let (more, c) ← c.nextKey first
    if more then
      let (k, c) ← c.tail.readString
      let c ← c.colon
      let (v, c) ← item c
      let (es, c) ← readEntries item fuel false c
      .ok ((k, v) :: es, c)
    else .ok ([], c)

/-- Reads a value. The number is the brackets that may still be opened, and one more. -/
def readValue : Nat → Reader Json
  | 0, c => c.failNext .tooDeep
  | depth + 1, c => do
    let (d, c) ← c.awaitValue
    if d = 'n' then
      let c ← Cursor.readWord "ull".toList c.tail
      .ok (.null, c)
    else if d = 't' then
      let c ← Cursor.readWord "rue".toList c.tail
      .ok (.bool true, c)
    else if d = 'f' then
      let c ← Cursor.readWord "alse".toList c.tail
      .ok (.bool false, c)
    else if d = '-' then
      let (n, c) ← Cursor.readNumber true c.tail
      .ok (.number n, c)
    else if isDigit d then
      let (n, c) ← Cursor.readNumber false c
      .ok (.number n, c)
    else if d = '"' then
      let (s, c) ← c.tail.readString
      .ok (.string s, c)
    else if d = '[' then
      if depth = 0 then c.failNext .tooDeep
      else
        let (items, c) ← inList (readItems (readValue depth) (c.rest.length + 1) true c.tail)
        .ok (.array items, c)
    else if d = '{' then
      if depth = 0 then c.failNext .tooDeep
      else
        let (entries, c) ← inObject (readEntries (readValue depth) (c.rest.length + 1) true c.tail)
        .ok (.object (Entries.insertAll [] entries), c)
    else c.failNext .expectedValue

def mismatch {α : Type} (wanted : Wanted) (c : Cursor) : Except Stop α := do
  let (d, c) ← c.awaitValue
  if d = '[' then c.fail (.wrongType .array wanted)
  else if d = '{' then c.fail (.wrongType .object wanted)
  else
    let (v, c) ← readValue 1 c
    c.fail (.wrongType v.found wanted)

def readString : Reader String := fun c => do
  let (d, c) ← c.awaitValue
  if d = '"' then c.tail.readString else mismatch .string c

def readUnit : Reader Unit := fun c => do
  let (d, c) ← c.awaitValue
  if d = 'n' then
    let c ← Cursor.readWord "ull".toList c.tail
    .ok ((), c)
  else mismatch .unit c

def readBool : Reader Bool := fun c => do
  let (d, c) ← c.awaitValue
  if d = 't' ∨ d = 'f' then
    let (_, c) ← readValue 1 c
    .ok (d == 't', c)
  else mismatch .truth c

def readNumber (wanted : Wanted) : Reader JsonNumber := fun c => do
  let (d, c) ← c.awaitValue
  if d = '-' then Cursor.readNumber true c.tail
  else if isDigit d then Cursor.readNumber false c
  else mismatch wanted c

def readReal : Reader Double := fun c => do
  let (n, c) ← readNumber .real c
  .ok (n.toDouble, c)

def readNatural32 : Reader Nat := fun c => do
  let (n, c) ← readNumber .natural32 c
  match n with
  | .natural k =>
    if k < Nat.pow 2 32 then .ok (k, c) else c.fail (.outOfRange (.number n) .natural32)
  | .negative _ => c.fail (.outOfRange (.number n) .natural32)
  | .real _ => c.fail (.wrongType (.number n) .natural32)

def readVariantName (known : List String) : Reader String := fun c => do
  let (d, c) ← c.awaitValue
  if d = '"' then
    let (name, c) ← c.tail.readString
    if name ∈ known then .ok (name, c) else c.fail (.unknownVariant name known)
  else mismatch .variant c

/-- A variant without content: its name, or an object with the name as key of a null. -/
def readVariant (known : List String) (depth : Nat) : Reader String := fun c => do
  let (d, c) ← c.awaitValue
  if d = '"' then readVariantName known c
  else if d = '{' then
    if depth ≤ 1 then c.failNext .tooDeep
    else
      let (name, c) ← readVariantName known c.tail
      let c ← c.colon
      let (_, c) ← readUnit c
      let c := c.skipBlanks
      match c.rest with
      | [] => c.fail .endOfObject
      | '}' :: _ => .ok (name, c.tail)
      | _ => c.fail .expectedValue
  else c.failNext .expectedValue

def readMap {α : Type} (item : Nat → Reader α) (depth : Nat) :
    Reader (List (String × α)) := fun c => do
  let (d, c) ← c.awaitValue
  if d = '{' then
    if depth ≤ 1 then c.failNext .tooDeep
    else inObject (readEntries (item (depth - 1)) (c.rest.length + 1) true c.tail)
  else mismatch .map c

/-! ### Skipped values -/

def skipNumber (c : Cursor) : Except Stop Cursor :=
  match c.rest with
  | [] => c.fail .invalidNumber
  | first :: more =>
    if !isDigit first then c.failNext .invalidNumber
    else if first = '0' ∧ more.takeWhile isDigit ≠ [] then (c.skip 1).failNext .invalidNumber
    else do
      let c := c.skip (c.rest.takeWhile isDigit).length
      let c ← match c.rest with
        | '.' :: fraction =>
          let n := (fraction.takeWhile isDigit).length
          if n = 0 then (c.skip 1).failNext .invalidNumber else .ok (c.skip (n + 1))
        | _ => .ok c
      match c.rest with
      | e :: more =>
        if e = 'e' ∨ e = 'E' then
          let sign := match more with
            | '+' :: _ | '-' :: _ => 1
            | _ => 0
          let c := c.skip (1 + sign)
          let n := (c.rest.takeWhile isDigit).length
          if n = 0 then c.failNext .invalidNumber else .ok (c.skip n)
        else .ok c
      | [] => .ok c

/-- A skipped string, behind its opening mark. Numbered escapes need not name characters. The number
bounds the characters read. -/
def skipString : Nat → Cursor → Except Stop Cursor
  | 0, c => c.fail .endOfString
  | fuel + 1, c =>
    match c.rest with
    | [] => c.fail .endOfString
    | d :: rest =>
      let after := c.next d rest
      if d = '"' then .ok after
      else if d = '\\' then
        match after.rest with
        | [] => after.fail .endOfString
        | e :: more =>
          if (Cursor.simpleEscape? e).isSome then skipString fuel (after.next e more)
          else if e = 'u' then do
            let (_, c) ← Cursor.hexEscape (after.next e more)
            skipString fuel c
          else after.failNext .invalidEscape
      else if d.toNat < 0x20 then c.fail .controlCharacter
      else skipString fuel after

inductive Enclosure where
  | list
  | object

/-- Past the closing brackets and the comma behind a skipped value, up to the next value; without
enclosures left there is none. `items` tells whether a value has just been read. -/
def skipToValue : Nat → Bool → List Enclosure → Cursor → Except Stop (List Enclosure × Cursor)
  | 0, _, _, c => c.fail .endOfValue
  | _ + 1, _, [], c => .ok ([], c)
  | fuel + 1, items, e :: es, c =>
    let c := c.skipBlanks
    let key (c : Cursor) : Except Stop (List Enclosure × Cursor) :=
      match e with
      | .list => .ok (e :: es, c)
      | .object => do
        let c := c.skipBlanks
        match c.rest with
        | [] => c.fail .endOfObject
        | '"' :: _ =>
          let c ← skipString (c.rest.length + 1) c.tail
          let c ← c.colon
          .ok (e :: es, c)
        | _ => c.failNext .keyNotString
    match e, c.rest with
    | .list, [] => c.fail .endOfList
    | .object, [] => c.fail .endOfObject
    | .list, ']' :: _ => skipToValue fuel true es c.tail
    | .object, '}' :: _ => skipToValue fuel true es c.tail
    | _, d :: _ =>
      if items then
        if d = ',' then key c.tail
        else match e with
          | .list => c.failNext .expectedCommaOrListEnd
          | .object => c.failNext .expectedCommaOrObjectEnd
      else key c

/-- Skips one value with all it contains. There is no limit to its nesting, and numbers may have any
size. The number bounds the values inside. -/
def skipValues : Nat → List Enclosure → Cursor → Except Stop Cursor
  | 0, _, c => c.fail .endOfValue
  | fuel + 1, open_, c => do
    let (d, c) ← c.awaitValue
    let (items, open_, c) ←
      if d = 'n' then do
        let c ← Cursor.readWord "ull".toList c.tail
        .ok (true, open_, c)
      else if d = 't' then do
        let c ← Cursor.readWord "rue".toList c.tail
        .ok (true, open_, c)
      else if d = 'f' then do
        let c ← Cursor.readWord "alse".toList c.tail
        .ok (true, open_, c)
      else if d = '-' then do
        let c ← skipNumber c.tail
        .ok (true, open_, c)
      else if isDigit d then do
        let c ← skipNumber c
        .ok (true, open_, c)
      else if d = '"' then do
        let c ← skipString (c.rest.length + 1) c.tail
        .ok (true, open_, c)
      else if d = '[' then .ok (false, .list :: open_, c.tail)
      else if d = '{' then .ok (false, .object :: open_, c.tail)
      else c.failNext .expectedValue
    let (open_, c) ← skipToValue (c.rest.length + 1) items open_ c
    if open_.isEmpty then .ok c else skipValues fuel open_ c

def skipValue (c : Cursor) : Except Stop Cursor := skipValues (c.rest.length + 1) [] c

/-! ### Whole texts -/

def Stop.error : Stop → Error
  | .placed fault p => ⟨fault, some p⟩
  | .loose fault c => ⟨fault, some c.position⟩

def readAll {α : Type} (value : Reader α) (s : String) : Except Error α :=
  match value (Cursor.start s) with
  | .error stop => .error stop.error
  | .ok (x, c) =>
    let c := c.skipBlanks
    match c.rest with
    | [] => .ok x
    | _ => .error ⟨.trailingCharacters, some (c.ahead 1)⟩

def parse (s : String) : Except Error Json := readAll (readValue depthLimit) s

end StoryPreview.Json
