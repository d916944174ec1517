import Mathlib.Data.List.SplitBy
import StoryPreview.Text.Blank
/-!
Words of a text. A word is not empty and has no blanks, and words that are put together with blanks
between them come apart again.
-/
namespace StoryPreview.Text

structure IsWord (w : List Char) : Prop where
  ne_nil : w ≠ []
  plain : ∀ c ∈ w, isBlank c = false

variable {w as bs : List Char}

theorem words_append (h : ∀ a ∈ as.getLast?, ∀ b ∈ bs.head?, (isBlank a == isBlank b) = false) :
    words (as ++ bs) = words as ++ words bs := by
  rw [words, List.splitBy_append h, List.filter_append]
  rfl

def Alike (a b : Char) : Prop := isBlank a = isBlank b

instance : Std.Symm Alike := ⟨fun _ _ => Eq.symm⟩

instance : IsTrans Char Alike := ⟨fun _ _ _ => Eq.trans⟩

theorem alike_of_mem_splitBy {cs run : List Char}
    (h : run ∈ cs.splitBy fun a b => isBlank a == isBlank b) {a b : Char} (ha : a ∈ run)
    (hb : b ∈ run) : Alike a b := by
  have chain : run.IsChain Alike := (List.isChain_of_mem_splitBy h).imp fun _ _ => beq_iff_eq.1
  exact chain.pairwise.forall_of_forall (fun c _ => (rfl : isBlank c = isBlank c)) ha hb

theorem isWord_of_mem_words {cs : List Char} (h : w ∈ words cs) : IsWord w := by
  obtain ⟨run, ink⟩ := List.mem_filter.1 h
  obtain ⟨c, hc, plain⟩ := List.any_eq_true.1 ink
  refine ⟨List.ne_nil_of_mem_splitBy run, fun d hd => ?_⟩
  exact (alike_of_mem_splitBy run hd hc).trans (by simpa using plain)

namespace IsWord

theorem words_eq (h : IsWord w) : words w = [w] := by
  have chain : w.IsChain fun a b => (isBlank a == isBlank b) = true := by
    refine List.Pairwise.isChain (List.pairwise_of_forall_mem_list fun a ha b hb => ?_)
    rw [h.plain a ha, h.plain b hb]
    rfl
  obtain ⟨c, cs, rfl⟩ := List.exists_cons_of_ne_nil h.ne_nil
  rw [words, List.splitBy_of_isChain h.ne_nil chain, List.filter_cons_of_pos (by simp [h.plain c]),
    List.filter_nil]

theorem last (h : IsWord w) {a : Char} (ha : a ∈ w.getLast?) : isBlank a = false :=
  h.plain a (List.mem_of_mem_getLast? ha)

theorem head (h : IsWord w) {a : Char} (ha : a ∈ w.head?) : isBlank a = false :=
  h.plain a (List.mem_of_mem_head? ha)

end IsWord

theorem mem_head?_intercalate {ws : List (List Char)} (h : IsWord w) {b : Char}
    (hb : b ∈ ([' '].intercalate (w :: ws)).head?) : b ∈ w.head? := by
  obtain ⟨c, cs, rfl⟩ := List.exists_cons_of_ne_nil h.ne_nil
  cases ws with
  | nil => simpa using hb
  | cons next ws => simpa [List.intercalate_cons_cons] using hb

theorem words_intercalate {ws : List (List Char)} (h : ∀ w ∈ ws, IsWord w) :
    words ([' '].intercalate ws) = ws := by
  induction ws with
  | nil => rfl
  | cons w ws ih =>
    obtain ⟨word, others⟩ := List.forall_mem_cons.1 h
    cases ws with
    | nil => rw [List.intercalate_singleton, word.words_eq]
    | cons next ws =>
      have space : isBlank ' ' = true := by decide
      have none : words [' '] = [] := by decide
      have front : ∀ a ∈ [' '].getLast?, ∀ b ∈ ([' '].intercalate (next :: ws)).head?,
          (isBlank a == isBlank b) = false := by
        rintro a ha b hb
        obtain rfl : ' ' = a := by simpa using ha
        rw [space, (others next List.mem_cons_self).head
          (mem_head?_intercalate (others next List.mem_cons_self) hb)]
        rfl
      have back : ∀ a ∈ w.getLast?, ∀ b ∈ ([' '] ++ [' '].intercalate (next :: ws)).head?,
          (isBlank a == isBlank b) = false := by
        rintro a ha b hb
        obtain rfl : ' ' = b := by simpa using hb
        rw [space, word.last ha]
        rfl
      rw [List.intercalate_cons_cons, List.append_assoc, words_append back, words_append front,
        none, ih others, word.words_eq]
      rfl

end StoryPreview.Text
