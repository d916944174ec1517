import StoryPreview.Journal
import StoryPreview.Settings.Basic
/-!
Settings as JSON: an object of some of the settings, or an array of their values in order. Settings
that are left out have their defaults. Names that are no setting are skipped; no setting may be
given twice.
-/
namespace StoryPreview.Settings

inductive Refusal where
  | toml
  | json (error : Json.Error)
  | invalid (issues : List Issue)

def Refusal.message : Refusal → String
  | toml => "TOML parse error"
  | json e => "JSON parse error: " ++ e.message
  | invalid issues => "validation errors: " ++ "; ".intercalate (issues.map Issue.message)

def readText (key : Key) (depth : Nat) : Json.Reader String :=
  match key.variants? with
  | some known => Json.readVariant known depth
  | none => Json.readString

def readOrdered (depth : Nat) : List Key → Bool → Settings → Json.Reader Settings
  | [], _, s, c => .ok (s, c)
  | key :: keys, first, s, c => do
    let (more, c) ← c.nextItem first
    if more then
      let (text, c) ← readText key depth c
      readOrdered depth keys false (s.withText key text) c
    else .ok (s, c)

def readNamed (depth : Nat) : Nat → Bool → List Key → Settings → Json.Reader Settings
  | 0, _, _, _, c => c.fail .endOfObject
  | fuel + 1, first, seen, s, c => do
    let (more, c) ← c.nextKey first
    if more then
      let (name, c) ← c.tail.readString
      match Key.ofName? name with
      | some key =>
        if key ∈ seen then .error (.loose (.duplicateField name) c)
        else
          let c ← c.colon
          let (text, c) ← readText key depth c
          readNamed depth fuel false (key :: seen) (s.withText key text) c
      | none =>
        let c ← c.colon
        let c ← Json.skipValue c
        readNamed depth fuel false seen s c
    else .ok (s, c)

def read (depth : Nat) : Json.Reader Settings := fun c => do
  let (d, c) ← c.awaitValue
  if d = '[' then
    if depth ≤ 1 then c.failNext .tooDeep
    else Json.inList (readOrdered (depth - 1) Key.all true {} c.tail)
  else if d = '{' then
    if depth ≤ 1 then c.failNext .tooDeep
    else Json.inObject (readNamed (depth - 1) (c.rest.length + 1) true [] {} c.tail)
  else Json.mismatch (.record "SandboxSettings") c

def ofJsonText (s : String) : Except Refusal Settings :=
  (Json.readAll (read Json.depthLimit) s).mapError .json

def ofJsonTextValid (s : String) : Except Refusal Settings := do
  let settings ← ofJsonText s
  match settings.issues with
  | [] => .ok settings
  | issues => .error (.invalid issues)

/-- The settings of an optional text: without a text, or with a blank one, the defaults. -/
def resolve (s : Option String) : Except Refusal Settings :=
  match Text.trim (s.getD "").toList with
  | [] => .ok {}
  | text => ofJsonTextValid (String.ofList text)

def resolveNotes (s : Option String) : List Note :=
  match Text.trim (s.getD "").toList with
  | [] => []
  | text =>
    match ofJsonTextValid (String.ofList text) with
    | .error _ => []
    | .ok settings =>
      [⟨.info, .settings, "using custom sandbox settings",
        [("frame", settings.frameId), ("mount", settings.mountId)]⟩]

def toJson (s : Settings) : Json := .object (Key.all.map fun k => (k.name, .string (s.text k)))

end StoryPreview.Settings
