import Mathlib.Data.List.Induction
import StoryPreview.Arguments.Codec
import StoryPreview.Proofs.OrderedMap
import StoryPreview.Proofs.Text.Splitting
/-!
Merging maps. A map is known by its keys in order and by what stands under each of them. A merge
keeps the keys of the first map and appends the new ones of the second, and looks into the second
map first. So merging is associative, order included, and reading the compact form of arguments part
by part is merging what the parts say.
-/
namespace StoryPreview

namespace Entries
variable {α : Type} {a b base extra : Entries α}

theorem filterMap_keys (distinct : a.keys.Nodup) :
    a.keys.filterMap (fun k => (a.get? k).map (k, ·)) = a := by
  have found : ∀ e ∈ a, (a.get? e.1).map (e.1, ·) = some e := fun e he => by
    rw [get?_of_mem distinct he, Option.map_some]
  rw [keys, List.filterMap_map]
  exact (List.filterMap_congr found).trans List.filterMap_some

/-- Entries with distinct keys are known by their keys in order and by what is found under each. -/
theorem ext_keys (distinct : a.keys.Nodup) (keys : a.keys = b.keys)
    (found : ∀ key, a.get? key = b.get? key) : a = b := by
  have distinct' : b.keys.Nodup := keys ▸ distinct
  calc a = a.keys.filterMap fun k => (a.get? k).map (k, ·) := (filterMap_keys distinct).symm
    _ = b.keys.filterMap fun k => (b.get? k).map (k, ·) := by simp only [keys, found]
    _ = b := filterMap_keys distinct'

theorem keys_insertAll (distinct : extra.keys.Nodup) :
    (base.insertAll extra).keys = base.keys ++ extra.keys.filter (· ∉ base.keys) := by
  induction extra generalizing base with
  | nil => exact (List.append_nil _).symm
  | cons e extra ih =>
    obtain ⟨k, v⟩ := e
    have head : keys ((k, v) :: extra) = k :: keys extra := rfl
    have next : base.insertAll ((k, v) :: extra) = (base.insert k v).insertAll extra := rfl
    rw [head, List.nodup_cons] at distinct
    obtain ⟨new, distinct⟩ := distinct
    rw [next, ih distinct, keys_insert, head]
    split
    · rename_i old
      rw [List.filter_cons_of_neg (by simpa using old)]
    · rename_i fresh
      have others : ∀ j ∈ keys extra, decide (j ∉ base.keys ++ [k]) = decide (j ∉ base.keys) := by
        intro j hj
        have : j ≠ k := fun he => new (he ▸ hj)
        simp [this]
      rw [List.filter_cons_of_pos (by simpa using fresh), List.filter_congr others,
        List.append_assoc, List.singleton_append]

end Entries

namespace OrderedMap
variable {α : Type} {a b x y z : OrderedMap α}

theorem ext_keys (keys : a.keys = b.keys) (found : ∀ key, a.get? key = b.get? key) : a = b :=
  ext_entries (Entries.ext_keys a.nodup keys found)

theorem keys_mergedWith : (a.mergedWith b).keys = a.keys ++ b.keys.filter (· ∉ a.keys) :=
  Entries.keys_insertAll b.nodup

theorem get?_insert (m : OrderedMap α) (key k : String) (v : α) :
    (m.insert key v).get? k = if key = k then some v else m.get? k := Entries.get?_insert key k v

theorem mergedWith_assoc : (x.mergedWith y).mergedWith z = x.mergedWith (y.mergedWith z) := by
  refine ext_keys ?_ fun key => ?_
  · -- A key of the last map is new to the merge of the others exactly if it is new to both.
    have new : ∀ k, decide (k ∉ x.keys ++ y.keys.filter (· ∉ x.keys)) =
        (decide (k ∉ x.keys) && decide (k ∉ y.keys)) := by
      intro k
      by_cases hx : k ∈ x.keys <;> simp [hx]
    simp only [keys_mergedWith, new, List.filter_append, List.filter_filter, List.append_assoc]
  · simp only [get?_mergedWith, Option.or_assoc]

theorem mergedWith_empty (m : OrderedMap α) : m.mergedWith {} = m := rfl

theorem empty_mergedWith (m : OrderedMap α) : mergedWith {} m = m := ofEntries_entries m

/-- What is inserted into the second map is inserted into the merge. -/
theorem mergedWith_insert (key : String) (v : α) :
    a.mergedWith (b.insert key v) = (a.mergedWith b).insert key v := by
  refine ext_keys ?_ fun k => ?_
  · have inserted (m : OrderedMap α) : (m.insert key v).keys = if key ∈ m.keys then m.keys
        else m.keys ++ [key] :=
      Entries.keys_insert key v m.entries
    simp only [keys_mergedWith, inserted]
    by_cases ha : key ∈ a.keys <;> by_cases hb : key ∈ b.keys <;> simp [ha, hb]
  · simp only [get?_mergedWith, get?_insert]
    split <;> rfl

theorem ofEntries_concat (es : Entries α) (e : String × α) :
    ofEntries (es ++ [e]) = (ofEntries es).insert e.1 e.2 :=
  ext_entries (List.foldl_append ..)

/-- The entries of two lists make the merge of two maps. -/
theorem ofEntries_append (es fs : Entries α) :
    ofEntries (es ++ fs) = (ofEntries es).mergedWith (ofEntries fs) := by
  induction fs using List.reverseRecOn with
  | nil => rw [List.append_nil]; rfl
  | append_singleton fs e ih =>
    rw [← List.append_assoc, ofEntries_concat, ofEntries_concat, ih, mergedWith_insert]

end OrderedMap

namespace Codec

theorem segments_append (as bs : List Char) :
    segments (as ++ ';' :: bs) = segments as ++ segments bs := by
  rw [segments, Text.splitOn_append, List.filterMap_append, ← segments, ← segments]

/-- Reading two parts with a separator between them is merging what they say. Merging keeps the keys
of the first map and appends the new ones of the second in their order, and a value of the second
map goes before one of the first. So merging is associative, and merging with the empty map, on
either side, changes nothing. -/
theorem decode_join_is_merge (as bs : List Char) (x y z : Arguments) :
    decode (as ++ ';' :: bs) = (decode as).mergedWith (decode bs) ∧ decode [] = {} ∧
      ((x.mergedWith y).keys = x.keys ++ y.keys.filter (· ∉ x.keys) ∧
        ∀ key, (x.mergedWith y).get? key = (y.get? key).or (x.get? key)) ∧
      (x.mergedWith y).mergedWith z = x.mergedWith (y.mergedWith z) ∧
      x.mergedWith {} = x ∧ OrderedMap.mergedWith {} x = x := by
  refine ⟨?_, rfl, ⟨OrderedMap.keys_mergedWith, fun _ => OrderedMap.get?_mergedWith _⟩,
    OrderedMap.mergedWith_assoc, x.mergedWith_empty, x.empty_mergedWith⟩
  rw [decode, segments_append, List.filterMap_append]
  exact OrderedMap.ofEntries_append _ _

end Codec
end StoryPreview
