import StoryPreview.Proofs.Json.Entries
import StoryPreview.Proofs.Json.Values
/-!
Arguments that have been written as JSON and read again. All but the numbers are as before; a number
is what its spelling is read as.
-/
namespace StoryPreview

namespace Argument

def IsFinite : Argument → Prop
  | number x => x.isFinite = true
  | _ => True

def IsShort : Argument → Prop
  | number x => x.IsShort
  | _ => True

def restored : Argument → Option Argument
  | number x => x.reread.map number
  | a => some a

theorem IsShort.restored {a : Argument} (h : a.IsShort) : a.restored = some a := by
  cases a with
  | number x => exact congrArg (Option.map number) (Double.IsShort.reread h)
  | bool b => rfl
  | text s => rfl
  | null => rfl

theorem gives_read_of {depth : Nat} {text : List Char} {found : Option Json}
    (h : Json.Gives (Json.readValue depth) text found)
    (scalar : ∀ v ∈ found, (∀ vs, v ≠ .array vs) ∧ ∀ es, v ≠ .object es) :
    Json.Gives (read depth) text (found.map ofJson) := by
  intro c rest hc hr
  have outcome := h c rest hc hr
  cases found with
  | none =>
    obtain ⟨stop, failed⟩ := outcome
    exact ⟨stop, by simp [read, failed, Bind.bind, Except.bind]⟩
  | some v =>
    obtain ⟨c', found, left⟩ := outcome
    obtain ⟨noArray, noObject⟩ := scalar v rfl
    refine ⟨c', ?_, left⟩
    cases v with
    | array vs => exact absurd rfl (noArray vs)
    | object es => exact absurd rfl (noObject es)
    | null | bool | number | string => simp [read, found, Bind.bind, Except.bind]

theorem gives_read {a : Argument} (h : a.IsFinite) (depth : Nat) :
    Json.Gives (read (depth + 1)) a.toJson.write a.restored := by
  cases a with
  | number x =>
    have real : Json.Gives (Json.readValue (depth + 1)) (Json.ofDouble x).write _ :=
      Json.gives_real h
    have number := gives_read_of real (by simp)
    rwa [Option.map_map] at number
  | bool b => exact gives_read_of (Json.reads_bool b) (by simp)
  | text s => exact gives_read_of (Json.reads_string s) (by simp)
  | null => exact gives_read_of Json.reads_null (by simp)

end Argument

namespace Arguments

def restored (m : Arguments) : Option Arguments :=
  (Json.restoredEntries Argument.restored m.entries).map ofEntries

theorem gives_read {m : Arguments} (h : ∀ e ∈ m.entries, e.2.IsFinite) :
    Json.Gives read m.toJson.write m.restored :=
  (Json.gives_readMap (by decide) fun e he => Argument.gives_read (h e he) _).map ofEntries

theorem restored_of_short {m : Arguments} (h : ∀ e ∈ m.entries, e.2.IsShort) :
    m.restored = some m := by
  have all : Json.restoredEntries Argument.restored m.entries = some m.entries :=
    Json.restoredEntries_self fun e he => (h e he).restored
  rw [restored, all, Option.map_some, ofEntries, OrderedMap.ofEntries_entries]

end Arguments
end StoryPreview
