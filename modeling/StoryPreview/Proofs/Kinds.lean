import StoryPreview.Proofs.Arguments.Restored
import StoryPreview.Signal
/-!
Kinds of values, and what is read of a value that has been stored: the value, apart from its numbers
that are not short.
-/
namespace StoryPreview.Signal

deriving instance DecidableEq for Signal

def IsFinite : Signal → Prop
  | real x => x.isFinite = true
  | arguments m => ∀ e ∈ m.entries, e.2.IsFinite
  | _ => True

def IsShort : Signal → Prop
  | real x => x.IsShort
  | arguments m => ∀ e ∈ m.entries, e.2.IsShort
  | _ => True

def restored : Signal → Option Signal
  | real x => x.reread.map real
  | arguments m => m.restored.map arguments
  | v => some v

theorem IsShort.restored {v : Signal} (h : v.IsShort) : v.restored = some v := by
  cases v with
  | real x => exact congrArg (Option.map real) (Double.IsShort.reread h)
  | arguments m => exact congrArg (Option.map arguments) (Arguments.restored_of_short h)
  | natural | text | flag | theme => rfl

inductive Kind.Holds : Kind → Signal → Prop
  | natural {n : Nat} (small : n < Nat.pow 2 32) : Holds natural (.natural n)
  | real (x : Double) : Holds real (.real x)
  | text (s : String) : Holds text (.text s)
  | flag (b : Bool) : Holds flag (.flag b)
  | theme (t : Theme) : Holds theme (.theme t)
  | arguments (m : Arguments) : Holds arguments (.arguments m)

def Kind.IsExact : Kind → Prop
  | natural | text | flag | theme => True
  | real | arguments => False

namespace Kind
variable {k : Kind} {v : Signal}

theorem gives_read (h : k.Holds v) (finite : v.IsFinite) :
    Json.Gives k.read v.toJson.write v.restored := by
  cases h with
  | natural small => exact (Json.reads_readNatural32 small).map Signal.natural
  | real x => exact (Json.gives_readReal finite).map Signal.real
  | text s => exact (Json.reads_readString s).map Signal.text
  | flag b => exact (Json.reads_readBool b).map Signal.flag
  | theme t => exact (t.reads Json.depthLimit).map Signal.theme
  | arguments m => exact (Arguments.gives_read finite).map Signal.arguments

theorem parse_stored (h : k.Holds v) (finite : v.IsFinite) :
    (k.parse v.toJson.text).toOption = v.restored :=
  Json.readAll_eq (gives_read h finite)

theorem IsExact.finite_short (hk : k.IsExact) (h : k.Holds v) : v.IsFinite ∧ v.IsShort := by
  cases h with
  | real x => exact hk.elim
  | arguments m => exact hk.elim
  | natural | text | flag | theme => exact ⟨trivial, trivial⟩

theorem parse_text (hk : k.IsExact) (h : k.Holds v) : k.parse v.toJson.text = .ok v := by
  obtain ⟨finite, short⟩ := hk.finite_short h
  exact Json.ok_of_toOption ((parse_stored h finite).trans short.restored)

theorem lt_of_readNatural32 {n : Nat} {c c' : Json.Cursor}
    (h : Json.readNatural32 c = .ok (n, c')) : n < Nat.pow 2 32 := by
  simp only [Json.readNatural32, Bind.bind, Except.bind] at h
  split at h
  · cases h
  · split at h
    · split at h
      · rename_i small
        cases h
        exact small
      · cases h
    · cases h
    · cases h

theorem holds_of_read {c c' : Json.Cursor} (h : k.read c = .ok (v, c')) : k.Holds v := by
  cases k with
  | natural =>
    obtain ⟨n, c₁, found, rfl⟩ := Json.of_map h
    exact .natural (lt_of_readNatural32 found)
  | real =>
    obtain ⟨x, c₁, -, rfl⟩ := Json.of_map h
    exact .real x
  | text =>
    obtain ⟨s, c₁, -, rfl⟩ := Json.of_map h
    exact .text s
  | flag =>
    obtain ⟨b, c₁, -, rfl⟩ := Json.of_map h
    exact .flag b
  | theme =>
    obtain ⟨t, c₁, -, rfl⟩ := Json.of_map h
    exact .theme t
  | arguments =>
    obtain ⟨m, c₁, -, rfl⟩ := Json.of_map h
    exact .arguments m

/-- What a text holds is of the kind for which it is read. -/
theorem holds_of_parse {text : String} (h : k.parse text = .ok v) : k.Holds v := by
  simp only [parse, Json.readAll] at h
  split at h
  · cases h
  · rename_i read
    split at h
    · cases h
      exact holds_of_read read
    · cases h

end Kind
end StoryPreview.Signal
