import StoryPreview.Preview
/-!
Stored values: a cell whose value is also kept in the store of the page, as a text under a key. The
value is read once in the beginning, and each new value is written. Failures of the store and of the
format are reported, and the cell has its value all the same.
-/
namespace StoryPreview
open Reactive

/-- How values are written as texts, and read back. A failure comes with its cause. -/
structure Format (V : Type) where
  write : V → Except String String
  read : String → Except String V

def Signal.Kind.format (k : Kind) : Format Signal where
  write v := .ok v.toJson.text
  read text :=
    match k.parse text with
    | .ok v => .ok v
    | .error e => .error e.message

structure Stored (V : Type := Signal) where
  key : String
  format : Format V
  cell : CellId
  writer : ListenerId

namespace Stored
variable {V : Type}

def storeWith (json : V → Except String String) (key : String) (v : V) (p : Page) :
    Except StorageFault Unit × Page :=
  match json v with
  | .ok text => p.store key text
  | .error cause => (.error (.json cause), p)

def writeWith (json : V → Except String String) (key : String) (v : V) : ActionOver V Unit := do
  let details := [("key", key), ("backend", Storage.name)]
  match ← Action.onPage (storeWith json key v) with
  | .ok () => Action.say .debug .stored "persisted value written" details
  | .error fault =>
    Action.say .warning .stored "failed to persist value" (details ++ [("error", fault.message)])

def readWith? (parse : String → Except String V) (key : String) : ActionOver V (Option V) := do
  let details := [("key", key), ("backend", Storage.name)]
  match ← Action.onPage fun p => p.load key with
  | .error fault =>
    Action.say .warning .stored "stored value unreadable" (details ++ [("error", fault.message)])
    return none
  | .ok none => return none
  | .ok (some text) =>
    match parse text with
    | .ok v => return some v
    | .error cause =>
      Action.say .warning .stored "stored value corrupt, using default"
        (details ++ [("error", cause)])
      return none

/-- A stored value: the one under the key, or else a default. It is written at once. -/
def createWith (format : Format V) (key : String) (default : V) : ActionOver V (Stored V) := do
  let first := (← readWith? format.read key).getD default
  writeWith format.write key first
  .create first fun c => .subscribe c (.store key) fun l => .done ⟨key, format, c, l⟩

def set (s : Stored V) (v : V) : ActionOver V Unit := Action.put s.cell v

def reload (s : Stored V) : ActionOver V Unit := do
  match ← readWith? s.format.read s.key with
  | some v => s.set v
  | none => return

def close (s : Stored V) : ActionOver V Unit := .release s.writer (.done ())

/-! ### Signals -/

def write (key : String) (v : Signal) : Action Unit := writeWith (fun v => .ok v.toJson.text) key v

def read? (kind : Signal.Kind) (key : String) : Action (Option Signal) :=
  readWith? kind.format.read key

def create (kind : Signal.Kind) (key : String) (default : Signal) : Action Stored :=
  createWith kind.format key default

def inspect (s : Stored) (x : CellView Signal) : String :=
  "Persisted \x7b key: " ++ Text.quote s.key ++ ", backend: " ++ Text.quote Storage.name ++
    ", value: " ++ x.inspect Signal.inspect ++ " \x7d"

end Stored
end StoryPreview
