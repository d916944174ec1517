import Mathlib.Data.List.DropRight
import StoryPreview.Text.Blank
/-!
Trimming: it removes characters at the ends only, a second time it does nothing, and a text without
blanks is left as it is.
-/
namespace StoryPreview.Text

theorem trim_eq (cs : List Char) : trim cs = (cs.dropWhile isBlank).rdropWhile isBlank := rfl

theorem trim_sublist (cs : List Char) : (trim cs).Sublist cs :=
  (List.rdropWhile_prefix isBlank _).sublist.trans (List.dropWhile_sublist isBlank)

/-- What is left of a text without an end of it starts as the text does, if anything is left. -/
theorem dropEndWhile_cons (p : Char → Bool) (c : Char) (cs : List Char) :
    dropEndWhile p (c :: cs) = [] ∨ ∃ rest, dropEndWhile p (c :: cs) = c :: rest := by
  have front : dropEndWhile p (c :: cs) <+: c :: cs := List.rdropWhile_prefix p _
  cases hd : dropEndWhile p (c :: cs) with
  | nil => exact .inl rfl
  | cons d rest =>
    rw [hd, List.cons_prefix_cons] at front
    exact .inr ⟨rest, by rw [front.1]⟩

theorem dropEndWhile_eq_nil {p : Char → Bool} {cs : List Char} :
    dropEndWhile p cs = [] ↔ ∀ c ∈ cs, p c = true :=
  List.rdropWhile_eq_nil_iff

theorem mem_of_mem_trim {cs : List Char} {c : Char} (h : c ∈ trim cs) : c ∈ cs :=
  (trim_sublist cs).subset h

theorem dropWhile_of_notBlank {cs : List Char} (h : ∀ c ∈ cs, isBlank c = false) :
    cs.dropWhile isBlank = cs := by
  cases cs with
  | nil => rfl
  | cons c cs => simp [h c List.mem_cons_self]

theorem trim_of_notBlank {cs : List Char} (h : ∀ c ∈ cs, isBlank c = false) : trim cs = cs := by
  rw [trim, trimStart, dropWhile_of_notBlank h, dropEndWhile,
    dropWhile_of_notBlank fun c hc => h c (List.mem_reverse.1 hc), List.reverse_reverse]

/-- A part at the start of a text that starts without a blank does so too. -/
theorem dropWhile_of_prefix {as cs : List Char} (hp : as <+: cs) (h : cs.dropWhile isBlank = cs) :
    as.dropWhile isBlank = as := by
  obtain ⟨bs, rfl⟩ := hp
  cases as with
  | nil => rfl
  | cons a as =>
    cases ha : isBlank a with
    | false => simp [ha]
    | true =>
      have short := (List.dropWhile_sublist isBlank (l := as ++ bs)).length_le
      rw [List.cons_append, List.dropWhile_cons_of_pos ha] at h
      rw [h, List.length_cons] at short
      exact absurd short (Nat.not_succ_le_self _)

theorem trim_trim (cs : List Char) : trim (trim cs) = trim cs := by
  have start : (trim cs).dropWhile isBlank = trim cs :=
    dropWhile_of_prefix (List.rdropWhile_prefix isBlank _) (List.dropWhile_idempotent isBlank cs)
  rw [trim_eq (trim cs), start, trim_eq cs, List.rdropWhile_idempotent]

end StoryPreview.Text
