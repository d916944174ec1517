import StoryPreview.Number.Spelling
/-!
The characters of spellings: digits, signs, the point, the mark of the exponent, and the letters of
the words for infinity and NaN.
-/
namespace StoryPreview

def isSpelled (c : Char) : Bool := c.isDigit || "+-.eInfityNa".toList.contains c

namespace Layout

theorem isDigit_of_place {l : Layout} {ds : List Char} {exponent : Int} {c : Char}
    (hd : ∀ d ∈ ds, d.isDigit = true) (hc : c ∈ l.place ds exponent) :
    c.isDigit = true ∨ c = '.' ∨ c = '-' ∨ c = 'e' ∨ c ∈ l.plus := by
  have taken (n : Nat) {d : Char} (h : d ∈ ds.take n) : d.isDigit = true :=
    hd d (List.mem_of_mem_take h)
  have dropped (n : Nat) {d : Char} (h : d ∈ ds.drop n) : d.isDigit = true :=
    hd d (List.mem_of_mem_drop h)
  have zeros {n : Nat} {d : Char} (h : d ∈ List.replicate n '0') : d.isDigit = true := by
    rw [(List.mem_replicate.1 h).2]
    decide
  have digits {n : Nat} {d : Char} (h : d ∈ Nat.toDigits 10 n) : d.isDigit = true :=
    Nat.isDigit_of_mem_toDigits (by decide) (by decide) h
  unfold place at hc
  split at hc
  · split at hc
    · simp only [List.mem_cons, List.mem_append] at hc
      rcases hc with rfl | rfl | hc | hc
      · exact .inl (by decide)
      · exact .inr (.inl rfl)
      · exact .inl (zeros hc)
      · exact .inl (hd _ hc)
    · simp only [] at hc
      split at hc
      · simp only [List.mem_append] at hc
        rcases hc with (hc | hc) | hc
        · exact .inl (hd _ hc)
        · exact .inl (zeros hc)
        · split at hc
          · simp only [List.mem_cons, List.not_mem_nil, or_false] at hc
            rcases hc with rfl | rfl
            · exact .inr (.inl rfl)
            · exact .inl (by decide)
          · simp at hc
      · simp only [List.mem_append, List.mem_cons] at hc
        rcases hc with hc | rfl | hc
        · exact .inl (taken _ hc)
        · exact .inr (.inl rfl)
        · exact .inl (dropped _ hc)
  · simp only [List.mem_append, List.mem_cons] at hc
    rcases hc with (hc | hc) | rfl | hc | hc
    · exact .inl (taken _ hc)
    · split at hc
      · simp at hc
      · rcases List.mem_cons.1 hc with rfl | hc
        · exact .inr (.inl rfl)
        · exact .inl (dropped _ hc)
    · exact .inr (.inr (.inr (.inl rfl)))
    · split at hc
      · rw [List.mem_singleton] at hc
        exact .inr (.inr (.inl hc))
      · exact .inr (.inr (.inr (.inr hc)))
    · exact .inl (digits hc)

end Layout

theorem Double.isSpelled_of_mem {x : Double} {c : Char} (h : c ∈ x.spelling) :
    isSpelled c = true := by
  have digit {d : Char} (h : d.isDigit = true) : isSpelled d = true := by simp [isSpelled, h]
  have all (word : List Char) (hw : word.all isSpelled = true) (h : c ∈ word) :
      isSpelled c = true :=
    List.all_eq_true.1 hw c h
  cases x with
  | nan => exact all "NaN".toList (by decide) h
  | infinity negative => cases negative <;> exact all _ (by decide) h
  | finite negative m =>
    simp only [Double.spelling, Layout.write] at h
    split at h
    · exact all ['0'] (by decide) (by simpa [Layout.plain] using h)
    · rcases List.mem_append.1 h with h | h
      · cases negative
        · simp at h
        · exact all ['-'] (by decide) h
      · have placed := Layout.isDigit_of_place
          (fun d hd => Nat.isDigit_of_mem_toDigits (by decide) (by decide) hd) h
        rcases placed with h | rfl | rfl | rfl | h
        · exact digit h
        · decide
        · decide
        · decide
        · exact all ['+'] (by decide) h

end StoryPreview
