import StoryPreview.Text.Blank
/-!
Splitting at a separator: parts that were put together with separators come apart again.
-/
namespace StoryPreview.Text
variable {α : Type} [BEq α] [LawfulBEq α] {sep : α}

theorem splitOn_append (as bs : List α) :
    splitOn sep (as ++ sep :: bs) = splitOn sep as ++ splitOn sep bs := by
  induction as with
  | nil => simp [splitOn]
  | cons a as ih =>
    simp only [List.cons_append, splitOn]
    split
    · rw [ih, List.cons_append]
    · rw [ih]
      cases h : splitOn sep as with
      | nil => exact absurd h (splitOn_ne_nil sep as)
      | cons piece pieces => rfl

theorem splitOn_of_notMem {as : List α} (h : sep ∉ as) : splitOn sep as = [as] := by
  induction as with
  | nil => rfl
  | cons a as ih =>
    simp only [List.mem_cons, not_or] at h
    simp [splitOn, Ne.symm h.1, ih h.2]

/-- Texts that were put together come apart where they were put together, and where they have
separators. -/
theorem splitOn_intercalate_eq {pieces : List (List α)} (hne : pieces ≠ []) :
    splitOn sep ([sep].intercalate pieces) = pieces.flatMap (splitOn sep) := by
  induction pieces with
  | nil => exact absurd rfl hne
  | cons piece pieces ih =>
    cases pieces with
    | nil => simp
    | cons next pieces =>
      rw [List.intercalate_cons_cons, List.append_assoc, List.singleton_append, splitOn_append,
        ih (by simp)]
      rfl

/-- Parts come apart where they were put together. -/
theorem splitOn_intercalate {pieces : List (List α)} (hne : pieces ≠ [])
    (h : ∀ piece ∈ pieces, sep ∉ piece) : splitOn sep ([sep].intercalate pieces) = pieces := by
  rw [splitOn_intercalate_eq hne, List.flatMap_def, List.map_congr_left fun piece hp =>
    splitOn_of_notMem (h piece hp), ← List.flatMap_def, List.flatMap_singleton']

theorem intercalate_splitOn (as : List α) : [sep].intercalate (splitOn sep as) = as := by
  induction as with
  | nil => rfl
  | cons a as ih =>
    obtain ⟨piece, pieces, split⟩ := List.exists_cons_of_ne_nil (splitOn_ne_nil sep as)
    simp only [splitOn]
    by_cases ha : (a == sep) = true
    · rw [if_pos ha, List.intercalate_cons_of_ne_nil (splitOn_ne_nil sep as), ih, beq_iff_eq.1 ha]
      rfl
    · rw [if_neg ha, split]
      rw [split] at ih
      cases pieces with
      | nil => simpa using ih
      | cons next pieces => simpa [List.intercalate_cons_cons] using ih

theorem mem_of_mem_splitOn {as piece : List α} {a : α} (h : piece ∈ splitOn sep as)
    (ha : a ∈ piece) : a ∈ as := by
  have mem {pieces : List (List α)} (h : piece ∈ pieces) : a ∈ [sep].intercalate pieces := by
    induction pieces with
    | nil => cases h
    | cons first pieces ih =>
      cases pieces with
      | nil => simpa [← List.mem_singleton.1 h] using ha
      | cons next pieces =>
        rw [List.intercalate_cons_cons, List.mem_append]
        rcases List.mem_cons.1 h with rfl | h
        · exact .inl (List.mem_append_left _ ha)
        · exact .inr (ih h)
  have whole : [sep].intercalate (splitOn sep as) = as := intercalate_splitOn as
  exact whole ▸ mem h

theorem splitFirst?_append {as : List α} (h : sep ∉ as) (bs : List α) :
    splitFirst? sep (as ++ sep :: bs) = some (as, bs) := by
  induction as with
  | nil => simp [splitFirst?]
  | cons a as ih =>
    simp only [List.mem_cons, not_or] at h
    simp [splitFirst?, Ne.symm h.1, ih h.2]

theorem splitFirst?_of_notMem {as : List α} (h : sep ∉ as) : splitFirst? sep as = none := by
  induction as with
  | nil => rfl
  | cons a as ih =>
    simp only [List.mem_cons, not_or] at h
    simp [splitFirst?, Ne.symm h.1, ih h.2]

theorem notMem_of_mem_splitOn {as piece : List α} (h : piece ∈ splitOn sep as) : sep ∉ piece := by
  induction as generalizing piece with
  | nil =>
    obtain rfl := List.mem_singleton.1 h
    exact List.not_mem_nil
  | cons a as ih =>
    simp only [splitOn] at h
    split at h
    · cases List.mem_cons.1 h with
      | inl h => simp [h]
      | inr h => exact ih h
    · rename_i ha
      cases hs : splitOn sep as with
      | nil => exact absurd hs (splitOn_ne_nil sep as)
      | cons first pieces =>
        rw [hs] at h ih
        cases List.mem_cons.1 h with
        | inl h =>
          rw [h, List.mem_cons, not_or]
          exact ⟨fun hsep => ha (beq_iff_eq.2 hsep.symm), ih List.mem_cons_self⟩
        | inr h => exact ih (List.mem_cons_of_mem _ h)

theorem notMem_of_length_splitOn {as : List α} (h : (splitOn sep as).length = 1) : sep ∉ as := by
  intro hm
  obtain ⟨before, after, rfl⟩ := List.append_of_mem hm
  have first := List.length_pos_iff.2 (splitOn_ne_nil sep before)
  have second := List.length_pos_iff.2 (splitOn_ne_nil sep after)
  rw [splitOn_append, List.length_append] at h
  omega

theorem of_splitFirst? {as before after : List α} (h : splitFirst? sep as = some (before, after)) :
    as = before ++ sep :: after ∧ sep ∉ before := by
  induction as generalizing before with
  | nil => cases h
  | cons a as ih =>
    simp only [splitFirst?] at h
    split at h
    · rename_i ha
      cases h
      simp [beq_iff_eq.1 ha]
    · rename_i ha
      obtain ⟨⟨front, back⟩, hf, h⟩ := Option.map_eq_some_iff.1 h
      cases h
      obtain ⟨rfl, hmem⟩ := ih hf
      exact ⟨rfl, fun hsep => by
        cases List.mem_cons.1 hsep with
        | inl h => exact ha (beq_iff_eq.2 h.symm)
        | inr h => exact hmem h⟩

end StoryPreview.Text
