import StoryPreview.Toml.Basic
import StoryPreview.Toml.Lexical
/-!
Reading TOML documents. A text either is a document or is not; what is wrong with it is not told.
-/
namespace StoryPreview.Toml

def depthLimit : Nat := 80

def items? (value : List Char → Option (Toml × List Char)) :
    Nat → List Char → Option (List Toml × List Char)
  | 0, _ => none
  | fuel + 1, cs =>
    match skipLines (cs.length + 1) cs with
    | ']' :: rest => some ([], rest)
    | cs => do
      let (v, rest) ← value cs
      match skipLines (rest.length + 1) rest with
      | ',' :: rest =>
        let (vs, rest) ← items? value fuel rest
        some (v :: vs, rest)
      | ']' :: rest => some ([v], rest)
      | _ => none

def pair? (value : List Char → Option (Toml × List Char)) (cs : List Char) :
    Option ((List String × Toml) × List Char) := do
  let (path, rest) ← key? keyLimit cs
  let rest ← mark? '=' rest
  let (v, rest) ← value (skipSpace rest)
  some ((path, v), rest)

def pairs? (value : List Char → Option (Toml × List Char)) :
    Nat → Toml → List Char → Option (Toml × List Char)
  | 0, _, _ => none
  | fuel + 1, t, cs => do
    let ((path, v), rest) ← pair? value cs
    let t ← assign path v t
    match skipSpace rest with
    | ',' :: rest => pairs? value fuel t rest
    | '}' :: rest => some (t, rest)
    | _ => none

/-- A value. The number is the brackets that may still be opened, and one more. -/
def value? : Nat → List Char → Option (Toml × List Char)
  | 0, _ => none
  | depth + 1, cs =>
    match cs with
    | '[' :: rest =>
      if depth = 0 then none
      else (items? (value? depth) (rest.length + 1) rest).map fun (vs, rest) => (.array vs, rest)
    | '{' :: rest =>
      if depth = 0 then none
      else
        match skipSpace rest with
        | '}' :: rest => some (.table .braces [], rest)
        | rest => pairs? (value? depth) (rest.length + 1) (.table .braces []) rest
    | '"' :: _ | '\'' :: _ => (string? cs).map fun (s, rest) => (.text (String.ofList s), rest)
    | cs => (skipScalar? cs).map fun rest => (.scalar, rest)

/-- A document under construction: the tree, and the path of the last header. -/
structure Draft where
  root : Toml
  current : List String

def Draft.open? (d : Draft) (item : Bool) (path : List String) : Option Draft := do
  let key ← path.getLast?
  let root ← alter false (if item then openItem key else openTable key) path.dropLast d.root
  some ⟨root, path⟩

def Draft.add? (d : Draft) (path : List String) (v : Toml) : Option Draft := do
  let root ← alter false (assign path v) d.current d.root
  some { d with root }

def lines? : Nat → Draft → List Char → Option Toml
  | 0, _, _ => none
  | fuel + 1, d, cs =>
    match skipSpace cs with
    | [] => some d.root
    | '[' :: '[' :: rest => do
      let (path, rest) ← key? keyLimit rest
      let rest ← mark? ']' rest
      let rest ← mark? ']' rest
      let rest ← lineEnd? rest
      lines? fuel (← d.open? true path) rest
    | '[' :: rest => do
      let (path, rest) ← key? keyLimit rest
      let rest ← mark? ']' rest
      let rest ← lineEnd? rest
      lines? fuel (← d.open? false path) rest
    | c :: rest =>
      if c = '#' ∨ c = '\n' ∨ c = '\r' then do
        let rest ← lineEnd? (c :: rest)
        lines? fuel d rest
      else do
        let ((path, v), rest) ← pair? (value? depthLimit) (c :: rest)
        let rest ← lineEnd? rest
        lines? fuel (← d.add? path v) rest

def parse? (s : String) : Option Toml :=
  let cs := match s.toList with
    | '\uFEFF' :: cs => cs
    | cs => cs
  lines? (cs.length + 1) ⟨.table .header [], []⟩ cs

end StoryPreview.Toml
