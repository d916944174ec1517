/-!
TOML documents as trees. A table remembers how it came about, because that decides what may be added
to it later: a table with a header is complete, one that only a longer header or a dotted key
mentions is open, and one in braces is closed.
-/
namespace StoryPreview

namespace Toml

inductive Origin where
  /-- The document itself, a header, or an item of a list of tables. -/
  | header
  /-- The path of a longer header. -/
  | implied
  /-- The path of a dotted key. -/
  | dotted
  | braces
  deriving DecidableEq, Repr

/-- Whether keys of a longer path may still go through the table. -/
def Origin.isOpen : Origin → Bool
  | implied | dotted => true
  | header | braces => false

end Toml

/-- A value of a TOML document. Numbers, truth values and times are told from texts, and their
content is not kept. -/
inductive Toml where
  | text (s : String)
  | scalar
  | array (items : List Toml)
  | table (origin : Toml.Origin) (entries : List (String × Toml))
  /-- Tables under headers in double brackets. -/
  | tables (items : List Toml)
  deriving Inhabited

namespace Toml

def lookup? (key : String) (entries : List (String × Toml)) : Option Toml :=
  (entries.find? fun e => e.1 = key).map Prod.snd

def update (key : String) (value : Toml) : List (String × Toml) → List (String × Toml)
  | [] => [(key, value)]
  | (k, v) :: rest => if k = key then (k, value) :: rest else (k, v) :: update key value rest

/-- Changes the table at a path below a table. Tables that are missing on the way are added; a list
of tables stands for its last one. Under `dotted` the path is that of a dotted key, which goes
through open tables only. -/
def alter (dotted : Bool) (change : Toml → Option Toml) : List String → Toml → Option Toml
  | [], t => change t
  | key :: path, .table origin entries =>
    match lookup? key entries with
    | none => do
      let below ← alter dotted change path (.table (if dotted then .dotted else .implied) [])
      some (.table origin (update key below entries))
    | some (.table below es) =>
      if below = .braces ∨ (dotted ∧ !below.isOpen) then none
      else do
        let t ← alter dotted change path (.table below es)
        some (.table origin (update key t entries))
    | some (.tables items) => do
      let last ← items.getLast?
      let t ← alter dotted change path last
      some (.table origin (update key (.tables (items.dropLast ++ [t])) entries))
    | some _ => none
  | _ :: _, _ => none

/-- Adds a value under a key that is new to the table. `nested` tells whether the key was dotted;
then the table has to come from dotted keys as well. -/
def addNew (nested : Bool) (key : String) (value : Toml) : Toml → Option Toml
  | .table origin entries =>
    if (origin == .dotted) = nested ∧ (lookup? key entries).isNone then
      some (.table origin (entries ++ [(key, value)]))
    else none
  | _ => none

def assign (path : List String) (value : Toml) (t : Toml) : Option Toml :=
  match path.getLast? with
  | none => none
  | some key =>
    let way := path.dropLast
    alter true (addNew (!way.isEmpty) key value) way t

/-- Opens the table of a header: a new one, or one that was implied before. -/
def openTable (key : String) : Toml → Option Toml
  | .table origin entries =>
    match lookup? key entries with
    | none => some (.table origin (entries ++ [(key, .table .header [])]))
    | some (.table .implied es) => some (.table origin (update key (.table .header es) entries))
    | some _ => none
  | _ => none

def openItem (key : String) : Toml → Option Toml
  | .table origin entries =>
    match lookup? key entries with
    | none => some (.table origin (entries ++ [(key, .tables [.table .header []])]))
    | some (.tables items) =>
      some (.table origin (update key (.tables (items ++ [.table .header []])) entries))
    | some _ => none
  | _ => none

def isEmpty : Toml → Bool
  | .array [] | .table _ [] => true
  | _ => false

end Toml
end StoryPreview
