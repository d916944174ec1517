import StoryPreview.Proofs.Json.Numbers
import StoryPreview.Theme
/-!
Values that have been written as JSON are read back by the readers of their kinds.
-/
namespace StoryPreview.Json
open Cursor
variable {depth : Nat}

theorem readAll_eq {α : Type} {read : Reader α} {text : List Char} {found : Option α}
    (h : Gives read text found) : (readAll read (String.ofList text)).toOption = found := by
  have outcome := h (Cursor.start (String.ofList text)) [] (by simp [Cursor.start]) .nil
  cases found with
  | none =>
    obtain ⟨stop, failed⟩ := outcome
    simp only [readAll, failed, Except.toOption]
  | some a =>
    obtain ⟨c', read, left⟩ := outcome
    have same : c'.skipBlanks = c' := skipBlanks_eq (by simp [left])
    simp only [readAll, read, same, left, Except.toOption]

theorem ok_of_toOption {ε α : Type} {r : Except ε α} {a : α} (h : r.toOption = some a) :
    r = .ok a := by
  cases r with
  | error e => cases h
  | ok b => exact congrArg _ (Option.some.inj h)

theorem of_map {α β : Type} {read : Reader α} {f : α → β} {c c' : Cursor} {b : β}
    (h : onto f (read c) = Except.ok (b, c')) : ∃ a c₁, read c = .ok (a, c₁) ∧ b = f a := by
  simp only [onto, Bind.bind, Except.bind] at h
  split at h
  · cases h
  · rename_i r found
    cases h
    exact ⟨r.1, r.2, found, rfl⟩

/-! ### Any value -/

theorem not_blank_of_digit {d : Char} (h : isDigit d = true) : isBlank d = false := by
  by_contra blank
  simp only [isBlank, Bool.or_eq_false_iff, beq_eq_false_iff_ne, not_and_or, not_not] at blank
  rcases blank with ((rfl | rfl) | rfl) | rfl <;> cases h

theorem reads_null : Reads (readValue (depth + 1)) (Json.write .null) .null := by
  intro c rest hc hr
  have front : c.rest = 'n' :: (['u', 'l', 'l'] ++ rest) := hc
  obtain ⟨c', read, left⟩ := readWord_eq (tail_rest front)
  refine ⟨c', ?_, left⟩
  simp [readValue, awaitValue_eq front (by decide), read, Bind.bind, Except.bind]

theorem reads_bool (b : Bool) : Reads (readValue (depth + 1)) (Json.write (.bool b)) (.bool b) := by
  intro c rest hc hr
  cases b with
  | true =>
    have front : c.rest = 't' :: (['r', 'u', 'e'] ++ rest) := hc
    obtain ⟨c', read, left⟩ := readWord_eq (tail_rest front)
    refine ⟨c', ?_, left⟩
    simp [readValue, awaitValue_eq front (by decide), read, Bind.bind, Except.bind]
  | false =>
    have front : c.rest = 'f' :: (['a', 'l', 's', 'e'] ++ rest) := hc
    obtain ⟨c', read, left⟩ := readWord_eq (tail_rest front)
    refine ⟨c', ?_, left⟩
    simp [readValue, awaitValue_eq front (by decide), read, Bind.bind, Except.bind]

theorem await_string {c : Cursor} {s : String} {rest : List Char}
    (hc : c.rest = writeString s ++ rest) :
    c.awaitValue = .ok ('"', c) ∧ ∃ c', c.tail.readString = .ok (s, c') ∧ c'.rest = rest := by
  rw [writeString, List.cons_append, List.append_assoc] at hc
  exact ⟨awaitValue_eq hc (by decide), readString_written (tail_rest hc)⟩

theorem reads_string (s : String) :
    Reads (readValue (depth + 1)) (Json.write (.string s)) (.string s) := by
  intro c rest hc hr
  obtain ⟨await, c', read, left⟩ := await_string hc
  refine ⟨c', ?_, left⟩
  simp [readValue, await, read, isDigit, Bind.bind, Except.bind]

/-- A stored number in front of a cursor: its sign, or its first digit. -/
theorem await_number {x : Double} (hx : x.isFinite = true) {c : Cursor} {rest : List Char}
    (hc : c.rest = Json.write (.ofDouble x) ++ rest) (hr : Breaks rest) :
    c.awaitValue = .ok ('-', c) ∧ Outcome (Cursor.readNumber true c.tail) rest
      (x.reread.map .real) ∨
      ∃ d, c.awaitValue = .ok (d, c) ∧ isDigit d = true ∧
      Outcome (Cursor.readNumber false c) rest (x.reread.map .real) := by
  cases x with
  | nan => cases hx
  | infinity negative => cases hx
  | finite negative m =>
    obtain ⟨d, more, form, digit, outcome⟩ := stored_write negative m
    have text : c.rest = (if negative then ['-'] else []) ++ d :: more ++ rest :=
      hc.trans (congrArg (· ++ rest) form)
    cases negative with
    | true =>
      have front : c.rest = '-' :: (d :: more ++ rest) := text
      exact .inl ⟨awaitValue_eq front (by decide), outcome c.tail rest (tail_rest front) hr⟩
    | false =>
      have front : c.rest = d :: (more ++ rest) := text
      exact .inr ⟨d, awaitValue_eq front (not_blank_of_digit digit), digit, outcome c rest front hr⟩

theorem gives_real {x : Double} (hx : x.isFinite = true) :
    Gives (readValue (depth + 1)) (Json.write (.ofDouble x))
    (x.reread.map fun y => .number (.real y)) := by
  intro c rest hc hr
  rcases await_number hx hc hr with ⟨await, read⟩ | ⟨d, await, digit, read⟩
  · have same : readValue (depth + 1) c = onto Json.number (Cursor.readNumber true c.tail) := by
      simp [readValue, await, onto, Bind.bind, Except.bind]
    have number := read.map Json.number
    rw [Option.map_map] at number
    exact same ▸ number
  · have other {e : Char} (he : isDigit e = false) : d ≠ e := by
      rintro rfl
      cases digit.symm.trans he
    have same : readValue (depth + 1) c = onto Json.number (Cursor.readNumber false c) := by
      simp [readValue, await, onto, Bind.bind, Except.bind, digit, other (e := 'n') rfl,
        other (e := 't') rfl, other (e := 'f') rfl, other (e := '-') rfl]
    have number := read.map Json.number
    rw [Option.map_map] at number
    exact same ▸ number

/-! ### Values of a kind -/

theorem reads_readString (s : String) : Reads readString (Json.write (.string s)) s := by
  intro c rest hc hr
  obtain ⟨await, c', read, left⟩ := await_string hc
  exact ⟨c', by simp [readString, await, read, Bind.bind, Except.bind], left⟩

theorem reads_readBool (b : Bool) : Reads readBool (Json.write (.bool b)) b := by
  intro c rest hc hr
  have any : Reads (readValue 1) (Json.write (.bool b)) (.bool b) := reads_bool b
  obtain ⟨c', read, left⟩ := any c rest hc hr
  refine ⟨c', ?_, left⟩
  cases b with
  | true =>
    have front : c.rest = 't' :: (['r', 'u', 'e'] ++ rest) := hc
    simp [readBool, awaitValue_eq front (by decide), read, Bind.bind, Except.bind]
  | false =>
    have front : c.rest = 'f' :: (['a', 'l', 's', 'e'] ++ rest) := hc
    simp [readBool, awaitValue_eq front (by decide), read, Bind.bind, Except.bind]

theorem reads_readNatural32 {n : Nat} (hn : n < 2 ^ 32) :
    Reads readNatural32 (Json.write (.number (.natural n))) n := by
  intro c rest hc hr
  have some : Nat.toDigits 10 n ≠ [] := List.length_pos_iff.1 Nat.length_toDigits_pos
  have faces : c.Faces (Nat.toDigits 10 n) rest := ⟨hc, .toDigits n, some, hr.notDigit⟩
  obtain ⟨d, more, front, digit, -⟩ := faces.first
  have small : n ≤ naturalLimit := Nat.le_trans (Nat.le_of_lt hn) (by decide)
  obtain ⟨c', read, left⟩ := readNumber_natural small hc hr
  have plain : d ≠ '-' := by
    rintro rfl
    cases digit
  refine ⟨c', ?_, left⟩
  have await := awaitValue_eq front (not_blank_of_digit digit)
  have number : Json.readNumber .natural32 c = .ok (.natural n, c') := by
    simp [Json.readNumber, await, plain, digit, read, Bind.bind, Except.bind]
  have range : n < Nat.pow 2 32 := hn
  simp only [readNatural32, number, Bind.bind, Except.bind, range, if_true]

theorem gives_readReal {x : Double} (hx : x.isFinite = true) :
    Gives readReal (Json.write (.ofDouble x)) x.reread := by
  intro c rest hc hr
  have double (o : Option Double) : (o.map JsonNumber.real).map JsonNumber.toDouble = o := by
    cases o <;> rfl
  rcases await_number hx hc hr with ⟨await, read⟩ | ⟨d, await, digit, read⟩
  · have same : Json.readNumber .real c = Cursor.readNumber true c.tail := by
      simp [Json.readNumber, await, Bind.bind, Except.bind]
    have number := read.map JsonNumber.toDouble
    rw [double, ← same] at number
    exact number
  · have other : d ≠ '-' := by
      rintro rfl
      cases digit
    have same : Json.readNumber .real c = Cursor.readNumber false c := by
      simp [Json.readNumber, await, digit, other, Bind.bind, Except.bind]
    have number := read.map JsonNumber.toDouble
    rw [double, ← same] at number
    exact number

theorem reads_readVariant {known : List String} {name : String} (h : name ∈ known) :
    Reads (readVariant known depth) (Json.write (.string name)) name := by
  intro c rest hc hr
  obtain ⟨await, c', read, left⟩ := await_string hc
  refine ⟨c', ?_, left⟩
  have named : readVariantName known c = .ok (name, c') := by
    simp [readVariantName, await, read, h, Bind.bind, Except.bind]
  simp [readVariant, await, named, Bind.bind, Except.bind]

end StoryPreview.Json

theorem StoryPreview.Theme.reads (t : Theme) (depth : Nat) :
    Json.Reads (Theme.read depth) t.toJson.write t := by
  have known : t.name ∈ names := by cases t <;> decide
  have same : ofName t.name = t := by cases t <;> decide
  have name : Json.Reads (Json.readVariant names depth) t.toJson.write t.name :=
    Json.reads_readVariant known
  have found : Json.Reads (read depth) t.toJson.write (ofName t.name) := name.map ofName
  rwa [same] at found
