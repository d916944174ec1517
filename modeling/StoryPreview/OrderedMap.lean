/-!
Maps from text keys that keep the order of first insertion. Inserting under a key that is already
there replaces the value and leaves the key in its place. `Entries` holds the operations on plain
lists of entries, and `OrderedMap` adds that the keys are distinct.
-/
namespace StoryPreview

abbrev Entries (α : Type) := List (String × α)

namespace Entries
variable {α : Type}

/-- Replaces the value of the first entry under `key`, or adds an entry at the end. -/
def insert (key : String) (value : α) : Entries α → Entries α
  | [] => [(key, value)]
  | (k, v) :: rest => if k = key then (k, value) :: rest else (k, v) :: insert key value rest

def get? (key : String) : Entries α → Option α
  | [] => none
  | (k, v) :: rest => if k = key then some v else get? key rest

def erase (key : String) : Entries α → Entries α
  | [] => []
  | (k, v) :: rest => if k = key then rest else (k, v) :: erase key rest

def insertAll (base extra : Entries α) : Entries α :=
  extra.foldl (fun es (k, v) => es.insert k v) base

def keys (es : Entries α) : List String := es.map Prod.fst

theorem keys_insert (key : String) (value : α) (es : Entries α) :
    (es.insert key value).keys = if key ∈ es.keys then es.keys else es.keys ++ [key] := by
  induction es with
  | nil => simp [insert, keys]
  | cons e es ih =>
    obtain ⟨k, v⟩ := e
    simp only [insert]
    split
    · simp_all [keys]
    · rename_i h
      simp only [keys, List.map_cons, List.mem_cons] at ih ⊢
      have : key ≠ k := fun he => h he.symm
      rw [ih]
      by_cases hm : key ∈ List.map Prod.fst es <;> simp [hm, this]

theorem keys_erase_sublist (key : String) (es : Entries α) :
    (es.erase key).keys.Sublist es.keys := by
  induction es with
  | nil => simp [erase]
  | cons e es ih =>
    simp only [erase, keys] at ih ⊢
    split
    · simp
    · simpa using ih

theorem nodup_insert {es : Entries α} (h : es.keys.Nodup) (key : String) (value : α) :
    (es.insert key value).keys.Nodup := by
  rw [keys_insert]
  split
  · exact h
  · rename_i hm
    rw [List.nodup_append]
    refine ⟨h, by simp, ?_⟩
    intro a ha b hb
    simp only [List.mem_singleton] at hb
    rintro rfl
    exact hm (hb ▸ ha)

theorem nodup_insertAll {base : Entries α} (h : base.keys.Nodup) (extra : Entries α) :
    (base.insertAll extra).keys.Nodup := by
  induction extra generalizing base with
  | nil => exact h
  | cons e extra ih => exact ih (nodup_insert h e.1 e.2)

end Entries

structure OrderedMap (α : Type) where
  entries : Entries α
  nodup : entries.keys.Nodup

namespace OrderedMap
variable {α : Type}

def empty : OrderedMap α := ⟨[], .nil⟩

instance : EmptyCollection (OrderedMap α) := ⟨empty⟩
instance : Inhabited (OrderedMap α) := ⟨empty⟩

instance [DecidableEq α] : DecidableEq (OrderedMap α) := fun a b =>
  if h : a.entries = b.entries then isTrue (by cases a; cases b; simp_all)
  else isFalse (fun e => h (by rw [e]))

def insert (m : OrderedMap α) (key : String) (value : α) : OrderedMap α :=
  ⟨m.entries.insert key value, Entries.nodup_insert m.nodup key value⟩

def erase (m : OrderedMap α) (key : String) : OrderedMap α :=
  ⟨m.entries.erase key, (Entries.keys_erase_sublist key m.entries).nodup m.nodup⟩

def get? (m : OrderedMap α) (key : String) : Option α := m.entries.get? key

def contains (m : OrderedMap α) (key : String) : Bool := (m.get? key).isSome

def keys (m : OrderedMap α) : List String := m.entries.keys

def size (m : OrderedMap α) : Nat := m.entries.length

def ofEntries (es : Entries α) : OrderedMap α := 
  ⟨Entries.insertAll [] es, @Entries.nodup_insertAll α [] .nil es⟩

/-- This map with the entries of another inserted. Keys of both keep their place here, new keys
follow in the order of the other map. -/
def mergedWith (m other : OrderedMap α) : OrderedMap α :=
  ⟨m.entries.insertAll other.entries, Entries.nodup_insertAll m.nodup other.entries⟩

/-- Whether two maps have the same keys, in any order, with values that `same` accepts. -/
def agrees (same : α → α → Bool) (a b : OrderedMap α) : Bool :=
  a.size == b.size && a.entries.all fun (k, v) =>
    match b.get? k with
    | some w => same v w
    | none => false

end OrderedMap
end StoryPreview
