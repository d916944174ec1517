import Mathlib.Data.List.Perm.Basic
import StoryPreview.OrderedMap
/-!
Looking up keys after entries have been inserted, left out, or given other values.
-/
namespace StoryPreview.Entries
variable {α : Type} {es : Entries α}

theorem get?_eq_none_iff {key : String} : es.get? key = none ↔ key ∉ es.keys := by
  induction es with
  | nil => simp [get?, keys]
  | cons e es ih =>
    obtain ⟨k, v⟩ := e
    simp only [get?, keys, List.map_cons, List.mem_cons, not_or] at ih ⊢
    split
    · rename_i h
      simp [h]
    · rename_i h
      rw [ih]
      exact ⟨fun hm => ⟨fun he => h he.symm, hm⟩, And.right⟩

theorem mem_of_get? {key : String} {v : α} (h : es.get? key = some v) : (key, v) ∈ es := by
  induction es with
  | nil => cases h
  | cons e es ih =>
    obtain ⟨k, w⟩ := e
    simp only [get?] at h
    split at h
    · rename_i hk
      obtain rfl := Option.some.inj h
      exact hk ▸ List.mem_cons_self
    · exact List.mem_cons_of_mem _ (ih h)

theorem get?_of_mem (h : es.keys.Nodup) {key : String} {v : α} (hm : (key, v) ∈ es) :
    es.get? key = some v := by
  induction es with
  | nil => cases hm
  | cons e es ih =>
    obtain ⟨k, w⟩ := e
    simp only [keys, List.map_cons, List.nodup_cons] at h
    rcases List.mem_cons.1 hm with heq | hm
    · cases heq
      simp [get?]
    · have hk : k ≠ key := fun he => h.1 (he ▸ List.mem_map.2 ⟨_, hm, rfl⟩)
      simp only [get?, hk, if_false]
      exact ih h.2 hm

theorem get?_insert (key k : String) (v : α) :
    (es.insert key v).get? k = if key = k then some v else es.get? k := by
  induction es with
  | nil => rfl
  | cons e es ih =>
    obtain ⟨k', w⟩ := e
    by_cases h : k' = key
    · subst h
      by_cases hk : k' = k <;> simp [insert, get?, hk]
    · by_cases hk : k' = k
      · subst hk
        simp [insert, get?, h, Ne.symm h]
      · simp [insert, get?, h, hk, ih]

theorem eq_or_mem_of_insert {key : String} {v : α} {e : String × α} (h : e ∈ es.insert key v) :
    e = (key, v) ∨ e ∈ es := by
  induction es with
  | nil => exact .inl (List.mem_singleton.1 h)
  | cons d es ih =>
    simp only [insert] at h
    split at h
    · rename_i hk
      obtain rfl | h := List.mem_cons.1 h
      · exact .inl (by rw [hk])
      · exact .inr (List.mem_cons_of_mem _ h)
    · obtain rfl | h := List.mem_cons.1 h
      · exact .inr List.mem_cons_self
      · exact (ih h).imp_right (List.mem_cons_of_mem _)

theorem mem_of_insert {key k : String} {v w : α} (h : (k, w) ∈ es.insert key v) :
    w = v ∨ (k, w) ∈ es :=
  (eq_or_mem_of_insert h).imp_left fun he => congrArg Prod.snd he

theorem mem_of_erase {key k : String} {w : α} (h : (k, w) ∈ es.erase key) : (k, w) ∈ es := by
  induction es with
  | nil => cases h
  | cons e es ih =>
    simp only [erase] at h
    split at h
    · exact List.mem_cons_of_mem _ h
    · rcases List.mem_cons.1 h with heq | h
      · exact heq ▸ List.mem_cons_self
      · exact List.mem_cons_of_mem _ (ih h)

theorem insert_self {key : String} {v : α} (h : es.get? key = some v) : es.insert key v = es := by
  induction es with
  | nil => cases h
  | cons e es ih =>
    obtain ⟨k, w⟩ := e
    by_cases hk : k = key
    · simp only [get?, hk, if_true, Option.some.injEq] at h
      simp [insert, hk, h]
    · simp only [get?, hk, if_false] at h
      simp [insert, hk, ih h]

theorem get?_erase (h : es.keys.Nodup) (key k : String) :
    (es.erase key).get? k = if key = k then none else es.get? k := by
  induction es with
  | nil => simp [erase, get?]
  | cons e es ih =>
    obtain ⟨k', w⟩ := e
    simp only [keys, List.map_cons, List.nodup_cons] at h
    by_cases hk' : k' = key
    · subst hk'
      by_cases hk : k' = k
      · subst hk
        simpa [erase] using get?_eq_none_iff.2 h.1
      · simp [erase, get?, hk]
    · by_cases hk : k' = k
      · subst hk
        simp [erase, get?, hk', Ne.symm hk']
      · simp only [erase, get?, hk', hk, if_false]
        exact ih h.2

theorem keys_erase_nodup (h : es.keys.Nodup) (key : String) : (es.erase key).keys.Nodup :=
  (keys_erase_sublist key es).nodup h

/-- What is kept after an entry was left out was kept before. -/
theorem get?_of_erase (h : es.keys.Nodup) {key k : String} {v : α}
    (he : (es.erase key).get? k = some v) : k ≠ key ∧ es.get? k = some v := by
  rw [get?_erase h] at he
  split at he
  · cases he
  · rename_i hk
    exact ⟨Ne.symm hk, he⟩

theorem insert_of_notMem {key : String} (h : key ∉ es.keys) (v : α) :
    es.insert key v = es ++ [(key, v)] := by
  induction es with
  | nil => rfl
  | cons e es ih =>
    simp only [keys, List.map_cons, List.mem_cons, not_or] at h
    simp only [insert, Ne.symm h.1, if_false, ih h.2, List.cons_append]

theorem insertAll_of_nodup {base extra : Entries α} (h : (keys (base ++ extra)).Nodup) :
    base.insertAll extra = base ++ extra := by
  induction extra generalizing base with
  | nil => exact (List.append_nil base).symm
  | cons e extra ih =>
    have new : e.1 ∉ keys base := by
      rw [keys, List.map_append, List.map_cons] at h
      exact fun hm => (List.nodup_append.1 h).2.2 _ hm _ List.mem_cons_self rfl
    have next : base.insertAll (e :: extra) = (base.insert e.1 e.2).insertAll extra := rfl
    rw [next, insert_of_notMem new, ih (by rwa [List.append_assoc]), List.append_assoc]
    rfl

/-- Where entries are inserted under distinct keys, they are found before those that were there. -/
theorem get?_insertAll {base extra : Entries α} (h : extra.keys.Nodup) (key : String) :
    (base.insertAll extra).get? key = (extra.get? key).or (base.get? key) := by
  induction extra generalizing base with
  | nil => rfl
  | cons e extra ih =>
    obtain ⟨k, v⟩ := e
    simp only [keys, List.map_cons, List.nodup_cons] at h
    have next : base.insertAll ((k, v) :: extra) = (base.insert k v).insertAll extra := rfl
    rw [next, ih h.2, get?_insert, get?]
    by_cases hk : k = key
    · rw [if_pos hk, if_pos hk, get?_eq_none_iff.2 (hk ▸ h.1)]
      rfl
    · rw [if_neg hk, if_neg hk]

theorem mem_keys_insertAll {base extra : Entries α} {key : String} :
    key ∈ (base.insertAll extra).keys ↔ key ∈ base.keys ∨ key ∈ extra.keys := by
  induction extra generalizing base with
  | nil => simp [insertAll, keys]
  | cons e extra ih =>
    have next : base.insertAll (e :: extra) = (base.insert e.1 e.2).insertAll extra := rfl
    have head : key ∈ keys (e :: extra) ↔ key = e.1 ∨ key ∈ keys extra := List.mem_cons
    rw [next, ih, keys_insert, head]
    split
    · rename_i hm
      constructor
      · rintro (h | h)
        · exact .inl h
        · exact .inr (.inr h)
      · rintro (h | rfl | h)
        · exact .inl h
        · exact .inl hm
        · exact .inr h
    · rw [List.mem_append, List.mem_singleton, or_assoc]

theorem mem_of_mem_insertAll {base extra : Entries α} {e : String × α}
    (h : e ∈ base.insertAll extra) : e ∈ base ∨ e ∈ extra := by
  induction extra generalizing base with
  | nil => exact .inl h
  | cons d extra ih =>
    have next : e ∈ (base.insert d.1 d.2).insertAll extra := h
    obtain h | h := ih next
    · exact (eq_or_mem_of_insert h).symm.imp_right fun he : e = d => he ▸ List.mem_cons_self
    · exact .inr (List.mem_cons_of_mem d h)

/-! ### Other values -/

section
variable {β : Type}

abbrev mapValues (f : α → β) (es : Entries α) : Entries β := es.map fun (k, v) => (k, f v)

theorem keys_mapValues (f : α → β) (es : Entries α) : (es.mapValues f).keys = es.keys := by
  simp [keys, mapValues]

theorem mapValues_insert (f : α → β) (key : String) (v : α) (es : Entries α) :
    (es.insert key v).mapValues f = (es.mapValues f).insert key (f v) := by
  induction es with
  | nil => rfl
  | cons e es ih =>
    obtain ⟨k, w⟩ := e
    by_cases hk : k = key
    · simp [insert, hk]
    · simpa [insert, hk] using ih

theorem mapValues_insertAll (f : α → β) (base extra : Entries α) :
    (base.insertAll extra).mapValues f = (base.mapValues f).insertAll (extra.mapValues f) := by
  induction extra generalizing base with
  | nil => rfl
  | cons e extra ih =>
    have next := ih (base.insert e.1 e.2)
    rw [mapValues_insert] at next
    exact next

end

end StoryPreview.Entries

namespace StoryPreview.OrderedMap
variable {α : Type} {same : α → α → Bool} {a b : OrderedMap α}

theorem entries_ofEntries {es : Entries α} (h : es.keys.Nodup) : (ofEntries es).entries = es :=
  Entries.insertAll_of_nodup h

theorem ext_entries (h : a.entries = b.entries) : a = b := by
  cases a
  cases b
  exact (mk.injEq ..).mpr h

theorem ofEntries_entries (m : OrderedMap α) : ofEntries m.entries = m :=
  ext_entries (entries_ofEntries m.nodup)

theorem get?_mergedWith (key : String) : (a.mergedWith b).get? key = (b.get? key).or (a.get? key) :=
  Entries.get?_insertAll b.nodup key

theorem mem_keys_mergedWith {key : String} : key ∈ (a.mergedWith b).keys ↔ key ∈ a.keys ∨
    key ∈ b.keys :=
  Entries.mem_keys_insertAll

theorem mem_keys_insert {key k : String} {v : α} : k ∈ (a.insert key v).keys ↔ k = key ∨
    k ∈ a.keys := by
  rw [keys, insert, Entries.keys_insert]
  split
  · rename_i h
    constructor
    · exact .inr
    · rintro (rfl | hk)
      · exact h
      · exact hk
  · rw [List.mem_append, List.mem_singleton, or_comm]
    rfl

theorem mem_keys_ofEntries {es : Entries α} {key : String} :
    key ∈ (ofEntries es).keys ↔ key ∈ es.keys := by
  refine Entries.mem_keys_insertAll.trans ?_
  simp [Entries.keys]

theorem agrees_iff : a.agrees same b = true ↔
    a.size = b.size ∧ ∀ e ∈ a.entries, ∃ w, b.get? e.1 = some w ∧ same e.2 w = true := by
  rw [agrees, Bool.and_eq_true, beq_iff_eq, List.all_eq_true]
  refine and_congr_right fun _ => forall₂_congr fun e _ => ?_
  cases h : b.get? e.1 <;> simp [h]

/-- Maps that agree have the same keys. -/
theorem keys_perm_of_agrees (h : a.agrees same b = true) : a.keys.Perm b.keys := by
  obtain ⟨size, all⟩ := agrees_iff.1 h
  have sub : a.keys ⊆ b.keys := by
    intro k hk
    obtain ⟨e, he, rfl⟩ := List.mem_map.1 hk
    obtain ⟨w, hw, -⟩ := all e he
    exact List.mem_map.2 ⟨_, Entries.mem_of_get? hw, rfl⟩
  refine (List.subperm_of_subset a.nodup sub).perm_of_length_le ?_
  simp only [keys, Entries.keys, List.length_map]
  exact Nat.le_of_eq size.symm

end StoryPreview.OrderedMap
