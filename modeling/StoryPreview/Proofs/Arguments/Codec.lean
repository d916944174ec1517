import StoryPreview.Arguments.Codec
import StoryPreview.Proofs.Number.Characters
import StoryPreview.Proofs.Query.Percent
/-!
The compact form of arguments: which characters it has besides those of its keys.
-/
namespace StoryPreview.Codec

def isCoded (c : Char) : Bool := isSpelled c || Percent.isComponentChar c || c == '%'

theorem isCoded_of_mem {v : Argument} {c : Char} (h : c ∈ encodeValue v) : isCoded c = true := by
  have all (word : List Char) (hw : word.all isCoded = true) (h : c ∈ word) : isCoded c = true :=
    List.all_eq_true.1 hw c h
  cases v with
  | bool b => cases b <;> exact all _ (by decide) h
  | number x => simp [isCoded, Double.isSpelled_of_mem h]
  | text s =>
    rcases Percent.mem_encode h with ⟨hk, -⟩ | rfl | ha
    · simp [isCoded, hk]
    · decide
    · simp [isCoded, Percent.isComponentChar, ha]
  | null => simp [encodeValue] at h

/-- A character that neither tokens nor keys have, and that is no separator, is not in the compact
form. -/
theorem notMem_encode {c : Char} (hc : isCoded c = false) (hcolon : c ≠ ':') (hsemi : c ≠ ';')
    {m : Arguments} (hk : ∀ k ∈ m.keys, c ∉ k.toList) : c ∉ encode m := by
  have value (v : Argument) : c ∉ encodeValue v := fun h => by simp [isCoded_of_mem h] at hc
  have entry {e : String × Argument} (he : c ∉ e.1.toList) : c ∉ encodeEntry e := by
    simp only [encodeEntry, List.mem_append, List.mem_cons, not_or]
    exact ⟨he, hcolon, value e.2⟩
  have entries (es : Entries Argument) (h : ∀ k ∈ es.keys, c ∉ k.toList) :
      c ∉ encodeEntries es := by
    induction es with
    | nil => simp [encodeEntries]
    | cons e es ih =>
      have head := entry (h e.1 (by simp [Entries.keys]))
      cases es with
      | nil => exact head
      | cons d es =>
        have tail := ih fun k hk => h k (List.mem_cons_of_mem _ hk)
        simp only [encodeEntries, List.mem_append, List.mem_cons, not_or]
        exact ⟨head, hsemi, tail⟩
  exact entries m.entries hk

/-- Only without arguments there is nothing to write. -/
theorem encode_eq_nil {m : Arguments} : encode m = [] ↔ m.entries = [] := by
  rw [encode]
  match m.entries with
  | [] => exact iff_of_true rfl rfl
  | [e] => simp [encodeEntries, encodeEntry]
  | e :: d :: es => simp [encodeEntries, encodeEntry]

end StoryPreview.Codec
