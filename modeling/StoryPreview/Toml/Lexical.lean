import StoryPreview.Number.Literal
import StoryPreview.Text.CharSet
import StoryPreview.Text.Blank
/-!
The lexical parts of TOML: blanks and comments, keys, strings, numbers and times. Each scanner takes
its part from the start of a text and gives what it stands for with the rest, or nothing.
-/
namespace StoryPreview.Toml

def isSpace (c : Char) : Bool := c == ' ' || c == '\t'

def skipSpace (cs : List Char) : List Char := cs.dropWhile isSpace

def isPlain (c : Char) : Bool := c == '\t' || (' ' ≤ c && c != '\x7f')

def newline? : List Char → Option (List Char)
  | '\n' :: cs => some cs
  | '\r' :: '\n' :: cs => some cs
  | _ => none

def skipComment : List Char → List Char
  | '#' :: cs => cs.dropWhile isPlain
  | cs => cs

def lineEnd? (cs : List Char) : Option (List Char) :=
  match skipComment (skipSpace cs) with
  | [] => some []
  | cs => newline? cs

def skipLines : Nat → List Char → List Char
  | 0, cs => cs
  | fuel + 1, cs =>
    let cs := skipSpace cs
    match newline? (skipComment cs) with
    | some rest => skipLines fuel rest
    | none => cs

def skipBreaks : Nat → List Char → List Char
  | 0, cs => cs
  | fuel + 1, cs =>
    let cs := skipSpace cs
    match newline? cs with
    | some rest => skipBreaks fuel rest
    | none => cs

def numbered? (n : Nat) (cs : List Char) : Option (Char × List Char) :=
  let ds := cs.take n
  if ds.length = n ∧ ds.all fun d => (hexDigit? d).isSome then
    let k := hexValue ds
    if k < 0xD800 ∨ (0xDFFF < k ∧ k < 0x110000) then some (Char.ofNat k, cs.drop n) else none
  else none

def escape? : List Char → Option (Char × List Char)
  | 'b' :: cs => some ('\x08', cs)
  | 't' :: cs => some ('\t', cs)
  | 'n' :: cs => some ('\n', cs)
  | 'f' :: cs => some ('\x0c', cs)
  | 'r' :: cs => some ('\r', cs)
  | '"' :: cs => some ('"', cs)
  | '\\' :: cs => some ('\\', cs)
  | 'u' :: cs => numbered? 4 cs
  | 'U' :: cs => numbered? 8 cs
  | _ => none

def basicString? : Nat → List Char → Option (List Char × List Char)
  | 0, _ => none
  | fuel + 1, cs =>
    match cs with
    | [] => none
    | '"' :: rest => some ([], rest)
    | '\\' :: rest => do
      let (c, rest) ← escape? rest
      let (s, rest) ← basicString? fuel rest
      some (c :: s, rest)
    | c :: rest =>
      if isPlain c then (basicString? fuel rest).map fun (s, rest) => (c :: s, rest) else none

def literalString? (cs : List Char) : Option (List Char × List Char) :=
  let s := cs.takeWhile fun c => isPlain c && c != '\''
  match cs.drop s.length with
  | '\'' :: rest => some (s, rest)
  | _ => none

/-- The closing marks of a string of several lines: of a run of marks the last three close it, and
up to two in front of them belong to it. How many belong to it, and the rest. -/
def closing? (mark : Char) (cs : List Char) : Option (Nat × List Char) :=
  let run := (cs.takeWhile (· == mark)).length
  if 3 ≤ run then
    let own := min (run - 3) 2
    some (own, cs.drop (own + 3))
  else none

def longBasicString? : Nat → List Char → Option (List Char × List Char)
  | 0, _ => none
  | fuel + 1, cs =>
    match closing? '"' cs with
    | some (own, rest) => some (List.replicate own '"', rest)
    | none =>
      match cs with
      | [] => none
      | '\\' :: rest =>
        match newline? (skipSpace rest) with
        | some rest => longBasicString? fuel (skipBreaks (rest.length + 1) rest)
        | none => do
          let (c, rest) ← escape? rest
          let (s, rest) ← longBasicString? fuel rest
          some (c :: s, rest)
      | c :: rest =>
        match newline? cs with
        | some rest => (longBasicString? fuel rest).map fun (s, rest) => ('\n' :: s, rest)
        | none =>
          if isPlain c then (longBasicString? fuel rest).map fun (s, rest) =>
            (c :: s, rest) else none

def longLiteralString? : Nat → List Char → Option (List Char × List Char)
  | 0, _ => none
  | fuel + 1, cs =>
    match closing? '\'' cs with
    | some (own, rest) => some (List.replicate own '\'', rest)
    | none =>
      match cs with
      | [] => none
      | c :: rest =>
        match newline? cs with
        | some rest => (longLiteralString? fuel rest).map fun (s, rest) => ('\n' :: s, rest)
        | none =>
          if isPlain c then (longLiteralString? fuel rest).map fun (s, rest) =>
            (c :: s, rest) else none

def afterOpening (cs : List Char) : List Char := (newline? cs).getD cs

def string? : List Char → Option (List Char × List Char)
  | '"' :: '"' :: '"' :: cs => longBasicString? (cs.length + 1) (afterOpening cs)
  | '\'' :: '\'' :: '\'' :: cs => longLiteralString? (cs.length + 1) (afterOpening cs)
  | '"' :: cs => basicString? (cs.length + 1) cs
  | '\'' :: cs => literalString? cs
  | _ => none

def isBare (c : Char) : Bool :=
  isDigit c || ('A' ≤ c && c ≤ 'Z') || ('a' ≤ c && c ≤ 'z') || c == '-' || c == '_'

def simpleKey? : List Char → Option (List Char × List Char)
  | '"' :: cs => basicString? (cs.length + 1) cs
  | '\'' :: cs => literalString? cs
  | cs =>
    match cs.takeWhile isBare with
    | [] => none
    | s => some (s, cs.drop s.length)

def keyLimit : Nat := 79

def key? : Nat → List Char → Option (List String × List Char)
  | 0, _ => none
  | fuel + 1, cs => do
    let (s, rest) ← simpleKey? (skipSpace cs)
    match skipSpace rest with
    | '.' :: rest =>
      let (path, rest) ← key? fuel rest
      some (String.ofList s :: path, rest)
    | rest => some ([String.ofList s], rest)

/-! ### Numbers and times -/

def separated : List Char → Bool
  | [] => false
  | '_' :: _ => false
  | [_] => true
  | _ :: '_' :: cs => separated cs
  | _ :: cs => separated cs

def digitRun? (isDigit : Char → Bool) (cs : List Char) : Option (List Char × List Char) :=
  let run := cs.takeWhile fun c => isDigit c || c == '_'
  if separated run then some (run.filter (· != '_'), cs.drop run.length) else none

def whole? (cs : List Char) : Option (List Char × List Char) :=
  let (sign, cs) := match cs with
    | '+' :: cs => ([], cs)
    | '-' :: cs => (['-'], cs)
    | cs => ([], cs)
  match cs with
  | '0' :: rest => some (sign ++ ['0'], rest)
  | _ => (digitRun? isDigit cs).map fun (ds, rest) => (sign ++ ds, rest)

def fraction? : List Char → Option (List Char × List Char)
  | '.' :: cs => (digitRun? isDigit cs).map fun (ds, rest) => ('.' :: ds, rest)
  | _ => none

def exponent? : List Char → Option (List Char × List Char)
  | c :: cs =>
    if c == 'e' || c == 'E' then
      let (sign, cs) := match cs with
        | '+' :: cs => ([], cs)
        | '-' :: cs => (['-'], cs)
        | cs => ([], cs)
      (digitRun? isDigit cs).map fun (ds, rest) => ('e' :: (sign ++ ds), rest)
    else none
  | [] => none

/-- Whether the digits of a number give a double that is not positive infinity. -/
def inRange (cs : List Char) : Bool :=
  match Double.read? cs with
  | some (.infinity negative) => negative
  | some _ => true
  | none => false

def dropText? (word : List Char) (cs : List Char) : Option (List Char) :=
  if word.isPrefixOf cs then some (cs.drop word.length) else none

def skipFloat? (cs : List Char) : Option (List Char) :=
  let usual : Option (List Char) := do
    let (whole, rest) ← whole? cs
    let (fraction, rest) ← match rest with
      | '.' :: _ => fraction? rest
      | _ => some ([], rest)
    let (exponent, rest) ← match rest with
      | 'e' :: _ | 'E' :: _ => exponent? rest
      | _ => some ([], rest)
    if fraction ++ exponent ≠ [] ∧ inRange (whole ++ fraction ++ exponent) then some rest else none
  let unsigned := match cs with
    | '+' :: cs | '-' :: cs => cs
    | cs => cs
  usual <|> dropText? "inf".toList unsigned <|> dropText? "nan".toList unsigned

def baseValue (base : Nat) (ds : List Char) : Nat :=
  ds.foldl (fun n d => base * n + (hexDigit? d).getD 0) 0

def skipInteger? (cs : List Char) : Option (List Char) :=
  let based (base : Nat) (cs : List Char) : Option (List Char) := do
    let (ds, rest) ← digitRun? (fun c => (hexDigit? c).any (· < base)) cs
    if baseValue base ds < Nat.pow 2 63 then some rest else none
  match cs with
  | '0' :: 'x' :: cs => based 16 cs
  | '0' :: 'o' :: cs => based 8 cs
  | '0' :: 'b' :: cs => based 2 cs
  | _ => do
    let (ds, rest) ← whole? cs
    match ds with
    | '-' :: ds => if baseValue 10 ds ≤ Nat.pow 2 63 then some rest else none
    | ds => if baseValue 10 ds < Nat.pow 2 63 then some rest else none

def fixed? (n low high : Nat) (cs : List Char) : Option (Nat × List Char) :=
  let ds := cs.take n
  if ds.length = n ∧ ds.all isDigit then
    let k := digitsValue ds
    if low ≤ k ∧ k ≤ high then some (k, cs.drop n) else none
  else none

def mark? (c : Char) : List Char → Option (List Char)
  | d :: cs => if d = c then some cs else none
  | [] => none

def daysOf (year month : Nat) : Nat :=
  if month = 2 then (if year % 4 = 0 ∧ (year % 100 ≠ 0 ∨ year % 400 = 0) then 29 else 28)
  else if month = 4 ∨ month = 6 ∨ month = 9 ∨ month = 11 then 30
  else 31

def skipDate? (cs : List Char) : Option (List Char) := do
  let (year, cs) ← fixed? 4 0 9999 cs
  let cs ← mark? '-' cs
  let (month, cs) ← fixed? 2 1 12 cs
  let cs ← mark? '-' cs
  let (_, cs) ← fixed? 2 1 (daysOf year month) cs
  some cs

def skipTime? (cs : List Char) : Option (List Char) := do
  let (_, cs) ← fixed? 2 0 23 cs
  let cs ← mark? ':' cs
  let (_, cs) ← fixed? 2 0 59 cs
  let cs ← mark? ':' cs
  let (_, cs) ← fixed? 2 0 60 cs
  match cs with
  | '.' :: rest => some (if rest.head?.any isDigit then rest.dropWhile isDigit else cs)
  | _ => some cs

def skipOffset? (cs : List Char) : Option (List Char) :=
  match cs with
  | c :: rest =>
    if c = 'Z' ∨ c = 'z' then some rest
    else if c = '+' ∨ c = '-' then do
      let (_, rest) ← fixed? 2 0 23 rest
      let rest ← mark? ':' rest
      let (_, rest) ← fixed? 2 0 59 rest
      some rest
    else some cs
  | [] => some cs

def skipMoment? (cs : List Char) : Option (List Char) :=
  match skipDate? cs with
  | none => skipTime? cs
  | some cs =>
    match cs with
    | c :: rest =>
      if c = 'T' ∨ c = 't' ∨ c = ' ' then
        match skipTime? rest with
        | some rest => skipOffset? rest
        | none => some cs
      else some cs
    | [] => some cs

def skipScalar? (cs : List Char) : Option (List Char) :=
  dropText? "true".toList cs <|> dropText? "false".toList cs <|> skipMoment? cs <|>
    skipFloat? cs <|> skipInteger? cs

end StoryPreview.Toml
