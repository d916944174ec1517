import StoryPreview.Json.Reader
import StoryPreview.Proofs.Number.Reading
/-!
What has been written as JSON is read back: words, strings, and whole numbers. A reader is in front
of the written text and of something that does not go on with it; it stops behind the text.
-/
namespace StoryPreview.Json
variable {α : Type} {c : Cursor} {d : Char} {rest : List Char}

def Breaks (rest : List Char) : Prop := ∀ d ∈ rest.head?, isDigit d = false ∧ d ≠ '.' ∧ d ≠ 'e' ∧
    d ≠ 'E'

theorem Breaks.nil : Breaks [] := by simp [Breaks]

theorem Breaks.notDigit (h : Breaks rest) : ∀ d ∈ rest.head?, isDigit d = false :=
  fun d hd => (h d hd).1

/-- A value has been read up to the rest; without a value reading has failed. -/
def Outcome (r : Except Stop (α × Cursor)) (rest : List Char) : Option α → Prop
  | some a => ∃ c', r = .ok (a, c') ∧ c'.rest = rest
  | none => ∃ stop, r = .error stop

def onto {β : Type} (f : α → β) (r : Except Stop (α × Cursor)) : Except Stop (β × Cursor) := do
  let (a, c) ← r
  .ok (f a, c)

theorem Outcome.map {β : Type} {r : Except Stop (α × Cursor)} {found : Option α}
    (h : Outcome r rest found) (f : α → β) : Outcome (onto f r) rest (found.map f) := by
  cases found with
  | none =>
    obtain ⟨stop, rfl⟩ := h
    exact ⟨stop, rfl⟩
  | some a =>
    obtain ⟨c', rfl, left⟩ := h
    exact ⟨c', rfl, left⟩

/-- In front of the text the reader gives the value and stops behind the text, or there is no value
and it fails. -/
def Gives (read : Reader α) (text : List Char) (found : Option α) : Prop :=
  ∀ (c : Cursor) (rest : List Char), c.rest = text ++ rest → Breaks rest →
    Outcome (read c) rest found

abbrev Reads (read : Reader α) (text : List Char) (a : α) : Prop := Gives read text (some a)

theorem Gives.map {β : Type} {read : Reader α} {text : List Char} {found : Option α}
    (h : Gives read text found) (f : α → β) :
    Gives (fun c => onto f (read c)) text (found.map f) :=
  fun c rest hc hr => (h c rest hc hr).map f

namespace Cursor

@[simp] theorem next_rest (c : Cursor) (d : Char) (rest : List Char) :
    (c.next d rest).rest = rest := by
  unfold next
  split <;> rfl

@[simp] theorem skip_rest (c : Cursor) (n : Nat) : (c.skip n).rest = c.rest.drop n := rfl

theorem tail_rest (h : c.rest = d :: rest) : c.tail.rest = rest := by
  unfold tail
  rw [h]
  exact next_rest c d rest

theorem skipBlanks_eq (h : ∀ d ∈ c.rest.head?, isBlank d = false) : c.skipBlanks = c := by
  obtain ⟨rest, line, column⟩ := c
  cases rest with
  | nil => rfl
  | cons d rest =>
    have plain : isBlank d = false := h d rfl
    have other : (d == '\n') = false := by
      rw [beq_eq_false_iff_ne]
      rintro rfl
      cases plain
    simp [skipBlanks, skipBlanksOf, plain, other]

theorem awaitValue_eq (h : c.rest = d :: rest) (hd : isBlank d = false) :
    c.awaitValue = .ok (d, c) := by
  have same : c.skipBlanks = c := skipBlanks_eq (by simpa [h] using hd)
  simp only [awaitValue, same, h]

theorem readWord_eq {word : List Char} (h : c.rest = word ++ rest) :
    ∃ c', readWord word c = .ok c' ∧ c'.rest = rest := by
  induction word generalizing c with
  | nil => exact ⟨c, rfl, h⟩
  | cons d word ih =>
    obtain ⟨c', read, left⟩ := ih (c := c.next d (word ++ rest)) (next_rest c d _)
    refine ⟨c', ?_, left⟩
    rw [readWord, h]
    simpa using read

/-! ### Strings -/

theorem hexDigit?_digitChar {n : Nat} (h : n < 16) : hexDigit? (Nat.digitChar n) = some n := by
  revert n
  decide

/-- The number of a control character is read from its two last digits. -/
theorem numberedEscape_control {n : Nat} (hn : n < 0x20)
    (h : c.rest = '0' :: '0' :: Nat.digitChar (n / 16) :: Nat.digitChar (n % 16) :: rest) :
    ∃ c', numberedEscape c = .ok (Char.ofNat n, c') ∧ c'.rest = rest := by
  have zero : hexDigit? '0' = some 0 := by decide
  have high := hexDigit?_digitChar (n := n / 16) (by omega)
  have low := hexDigit?_digitChar (n := n % 16) (by omega)
  have value : ((0 * 16 + 0) * 16 + n / 16) * 16 + n % 16 = n := by omega
  have digits : hexEscape c = .ok (n, c.skip 4) := by
    simp only [hexEscape, h, zero, high, low, value]
  refine ⟨c.skip 4, ?_, by simp [h]⟩
  have small : ¬ (0xDC00 ≤ n ∧ n ≤ 0xDFFF) := by omega
  have plain : n < 0xD800 ∨ 0xDBFF < n := by omega
  simp [numberedEscape, digits, Bind.bind, Except.bind, small, plain]

/-- The written form of a character is an escape of it, or the character itself. -/
theorem escapeChar_cases (d : Char) :
    (∃ e, escapeChar d = ['\\', e] ∧ simpleEscape? e = some d) ∨
    (d.toNat < 0x20 ∧
      escapeChar d = ['\\', 'u', '0', '0', Nat.digitChar (d.toNat / 16),
        Nat.digitChar (d.toNat % 16)]) ∨
    (escapeChar d = [d] ∧ d ≠ '"' ∧ d ≠ '\\' ∧ ¬ d.toNat < 0x20) := by
  unfold escapeChar
  split_ifs with mark slash back feed line ret tab control
  · exact .inl ⟨_, rfl, by subst mark; decide⟩
  · exact .inl ⟨_, rfl, by subst slash; decide⟩
  · exact .inl ⟨_, rfl, back ▸ rfl⟩
  · exact .inl ⟨_, rfl, feed ▸ rfl⟩
  · exact .inl ⟨_, rfl, line ▸ rfl⟩
  · exact .inl ⟨_, rfl, ret ▸ rfl⟩
  · exact .inl ⟨_, rfl, tab ▸ rfl⟩
  · exact .inr (.inl ⟨control, rfl⟩)
  · exact .inr (.inr ⟨rfl, mark, slash, control⟩)

theorem stringBody_escapeChar (fuel : Nat) (h : c.rest = escapeChar d ++ rest) :
    ∃ c', c'.rest = rest ∧
    stringBody (fuel + 1) c = (stringBody fuel c').map fun r => (d :: r.1, r.2) := by
  rcases escapeChar_cases d with ⟨e, form, simple⟩ | ⟨control, form⟩ | ⟨form, mark, slash, plain⟩
  · rw [form] at h
    refine ⟨(c.next '\\' (e :: rest)).next e rest, next_rest _ _ _, ?_⟩
    have escaped : escape (c.next '\\' (e :: rest)) =
        .ok (d, (c.next '\\' (e :: rest)).next e rest) := by
      simp [escape, simple]
    simp only [stringBody, h, List.cons_append, List.nil_append, escaped]
    cases stringBody fuel _ <;> simp [Bind.bind, Except.bind, Except.map]
  · rw [form] at h
    generalize hn : '0' :: '0' :: Nat.digitChar (d.toNat / 16) :: [Nat.digitChar (d.toNat % 16)] =
      number at h
    generalize after : (c.next '\\' ('u' :: (number ++ rest))).next 'u' (number ++ rest) = c₁
    have left₁ : c₁.rest = number ++ rest := after ▸ next_rest _ _ _
    obtain ⟨c', numbered, left⟩ :=
      numberedEscape_control control (left₁.trans (congrArg (· ++ rest) hn.symm))
    rw [Char.ofNat_toNat] at numbered
    refine ⟨c', left, ?_⟩
    have other : simpleEscape? 'u' = none := by decide
    have escaped : escape (c.next '\\' ('u' :: (number ++ rest))) = .ok (d, c') := by
      simp [escape, other, after, numbered]
    simp only [stringBody, h, List.cons_append, escaped]
    cases stringBody fuel _ <;> simp [Bind.bind, Except.bind, Except.map]
  · rw [form] at h
    refine ⟨c.next d rest, next_rest _ _ _, ?_⟩
    simp only [stringBody, h, List.cons_append, List.nil_append, mark, slash, plain, if_false]
    cases stringBody fuel _ <;> simp [Bind.bind, Except.bind, Except.map]

theorem stringBody_written {cs : List Char} {fuel : Nat} (hf : cs.length < fuel)
    (h : c.rest = cs.flatMap escapeChar ++ '"' :: rest) : ∃ c', stringBody fuel c = .ok (cs, c') ∧
    c'.rest = rest := by
  induction cs generalizing c fuel with
  | nil =>
    obtain ⟨fuel, rfl⟩ := Nat.exists_eq_succ_of_ne_zero (Nat.ne_of_gt hf)
    refine ⟨c.next '"' rest, ?_, next_rest _ _ _⟩
    simp only [List.flatMap_nil, List.nil_append] at h
    simp [stringBody, h]
  | cons d cs ih =>
    obtain ⟨fuel, rfl⟩ := Nat.exists_eq_succ_of_ne_zero (Nat.ne_of_gt (Nat.zero_lt_of_lt hf))
    rw [List.flatMap_cons, List.append_assoc] at h
    obtain ⟨c₁, left, step⟩ := stringBody_escapeChar fuel h
    obtain ⟨c', read, left'⟩ := ih (Nat.lt_of_succ_lt_succ hf) left
    exact ⟨c', by rw [step, read]; rfl, left'⟩

theorem length_le_flatMap (cs : List Char) : cs.length ≤ (cs.flatMap escapeChar).length := by
  induction cs with
  | nil => exact Nat.le_refl _
  | cons d cs ih =>
    have one : 1 ≤ (escapeChar d).length := by
      rcases escapeChar_cases d with ⟨e, form, -⟩ | ⟨-, form⟩ | ⟨form, -⟩ <;> simp [form]
    rw [List.flatMap_cons, List.length_append, List.length_cons]
    omega

theorem readString_written {s : String} (h : c.rest = s.toList.flatMap escapeChar ++ '"' :: rest) :
    ∃ c', c.readString = .ok (s, c') ∧ c'.rest = rest := by
  have enough : s.toList.length < c.rest.length + 1 := by
    have := length_le_flatMap s.toList
    rw [h, List.length_append]
    omega
  obtain ⟨c', read, left⟩ := stringBody_written enough h
  refine ⟨c', ?_, left⟩
  simp [readString, read, Bind.bind, Except.bind, String.ofList_toList]

end Cursor
end StoryPreview.Json
