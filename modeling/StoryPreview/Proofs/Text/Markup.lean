import StoryPreview.Number.Literal
import StoryPreview.Text.CharMap
import StoryPreview.Text.Markup
/-!
Ways to escape texts inside markup, one character at a time. Whatever entities are written, the
escaped text has none of the characters that open or close something, and who reads the entities
gets the text again.
-/
namespace StoryPreview.Text

def isDelimiter (c : Char) : Bool := c ∈ ['<', '>', '"']

def delimiters (s : String) : List Char := s.toList.filter isDelimiter

def named : List (List Char × Char) :=
  [("amp".toList, '&'), ("lt".toList, '<'), ("gt".toList, '>'), ("quot".toList, '"'),
    ("apos".toList, '\'')]

def entity? (name : List Char) : Option Char :=
  match named.find? (·.1 == name), name with
  | some entry, _ => some entry.2
  | none, '#' :: 'x' :: d :: ds =>
    if (d :: ds).all fun d => (hexDigit? d).isSome then some (Char.ofNat (hexValue (d :: ds)))
      else none
  | none, '#' :: d :: ds =>
    if (d :: ds).all isDigit then some (Char.ofNat (digitsValue (d :: ds))) else none
  | none, _ => none

def IsEntity (c : Char) (text : List Char) : Prop := ∃ name, text = '&' :: (name ++ [';']) ∧
    entity? name = some c

def unescape : List Char → List Char
  | [] => []
  | c :: cs =>
    if c = '&' then
      match entity? (cs.takeWhile (· != ';')) with
      | some d => d :: unescape ((cs.dropWhile (· != ';')).drop 1)
      | none => c :: unescape cs
    else c :: unescape cs
termination_by cs => cs.length
decreasing_by
  · have := (List.dropWhile_suffix (· != ';') (l := cs)).length_le
    simp only [List.length_drop, List.length_cons]
    omega
  · simp
  · simp

def special : List Char := ['&', '<', '>', '"', '\'']

/-- A way to escape one character at a time: entities for the special characters at least. -/
structure Escaper where
  char : Char → List Char
  isEntity : ∀ c ∈ special, IsEntity c (char c)
  other : ∀ c, c ∉ special → char c = [c] ∨ IsEntity c (char c)

variable {c : Char} {name written : List Char}

/-- Whether a character can stand in the name of an entity: it does not end that, and opens and
closes nothing. -/
def isNamed (c : Char) : Bool := c != ';' && !isDelimiter c

theorem isNamed_eq_false (h : isNamed c = false) : c = ';' ∨ c = '<' ∨ c = '>' ∨ c = '"' := by
  refine Decidable.byContradiction fun other => ?_
  simp only [not_or] at other
  simp [isNamed, isDelimiter, other] at h

theorem isNamed_of_hexDigit? (h : (hexDigit? c).isSome = true) : isNamed c = true := by
  cases other : isNamed c with
  | true => rfl
  | false => obtain rfl | rfl | rfl | rfl := isNamed_eq_false other <;> exact absurd h (by decide)

theorem isNamed_of_isDigit (h : isDigit c = true) : isNamed c = true := by
  cases other : isNamed c with
  | true => rfl
  | false => obtain rfl | rfl | rfl | rfl := isNamed_eq_false other <;> exact absurd h (by decide)

theorem isNamed_of_entity? (h : entity? name = some c) : name.all isNamed = true := by
  unfold entity? at h
  split at h
  · rename_i entry found
    have all : (named.all fun entry => entry.1.all isNamed) = true := by decide
    have same := List.find?_some found
    rw [← eq_of_beq same]
    exact List.all_eq_true.1 all entry (List.mem_of_find?_eq_some found)
  · split at h
    · rename_i all
      rw [List.all_cons, List.all_cons, List.all_eq_true.2 fun d hd =>
        isNamed_of_hexDigit? (List.all_eq_true.1 all d hd)]
      decide
    · cases h
  · split at h
    · rename_i all
      rw [List.all_cons, List.all_eq_true.2 fun d hd =>
        isNamed_of_isDigit (List.all_eq_true.1 all d hd)]
      decide
    · cases h
  · cases h

/-- The name of an entity has no semicolon in it, and nothing that opens or closes something. -/
theorem plain_of_entity? (h : entity? name = some c) {d : Char} (hd : d ∈ name) :
    d ≠ ';' ∧ isDelimiter d = false := by
  simpa [isNamed] using List.all_eq_true.1 (isNamed_of_entity? h) d hd

theorem IsEntity.filter_isDelimiter (h : IsEntity c written) : written.filter isDelimiter = [] := by
  obtain ⟨name, rfl, names⟩ := h
  refine List.filter_eq_nil_iff.2 fun d hd => ?_
  simp only [List.mem_cons, List.mem_append, List.not_mem_nil, or_false] at hd
  obtain rfl | hd | rfl := hd
  · decide
  · simp [(plain_of_entity? names hd).2]
  · decide

/-- An entity is read as its character, whatever follows. -/
theorem IsEntity.unescape_append (h : IsEntity c written) (rest : List Char) :
    unescape (written ++ rest) = c :: unescape rest := by
  obtain ⟨name, rfl, names⟩ := h
  have inside : ∀ d ∈ name, (d != ';') = true := fun d hd => by simp [(plain_of_entity? names hd).1]
  have taken : (name ++ ';' :: rest).takeWhile (· != ';') = name := by
    rw [List.takeWhile_append_of_pos inside, List.takeWhile_cons_of_neg (by decide),
      List.append_nil]
  have dropped : (name ++ ';' :: rest).dropWhile (· != ';') = ';' :: rest := by
    rw [List.dropWhile_append_of_pos inside, List.dropWhile_cons_of_neg (by decide)]
  rw [List.cons_append, List.append_assoc, List.singleton_append, unescape, if_pos rfl, taken,
    names, dropped]
  rfl

namespace Escaper
variable (e : Escaper)

def text (s : String) : String := String.ofList (s.toList.flatMap e.char)

/-- The way of this library, which writes the slash as an entity too. -/
def standard : Escaper where
  char := escapeMarkupChar
  isEntity c hc := by
    simp only [special, List.mem_cons, List.not_mem_nil, or_false] at hc
    obtain rfl | rfl | rfl | rfl | rfl := hc
    · exact ⟨"amp".toList, by decide, by decide⟩
    · exact ⟨"lt".toList, by decide, by decide⟩
    · exact ⟨"gt".toList, by decide, by decide⟩
    · exact ⟨"quot".toList, by decide, by decide⟩
    · exact ⟨"#x27".toList, by decide, by decide⟩
  other c hc := by
    simp only [special, List.mem_cons, List.not_mem_nil, or_false, not_or] at hc
    by_cases slash : c = '/'
    · subst slash
      exact .inr ⟨"#x2f".toList, by decide, by decide⟩
    · exact .inl (by simp [escapeMarkupChar, hc, slash])

theorem char_cases (c : Char) : IsEntity c (e.char c) ∨ c ∉ special ∧ e.char c = [c] := by
  by_cases listed : c ∈ special
  · exact .inl (e.isEntity c listed)
  · exact (e.other c listed).elim (fun kept => .inr ⟨listed, kept⟩) .inl

theorem delimiters_text (s : String) : delimiters (e.text s) = [] := by
  rw [delimiters, text, String.toList_ofList, List.filter_flatMap, List.flatMap_eq_nil_iff]
  intro c _
  obtain entity | ⟨plain, kept⟩ := e.char_cases c
  · exact entity.filter_isDelimiter
  · have mark : isDelimiter c = false := by
      simp only [special, List.mem_cons, List.not_mem_nil, or_false, not_or] at plain
      simp [isDelimiter, plain]
    rw [kept, List.filter_cons_of_neg (by simp [mark]), List.filter_nil]

theorem unescape_text (s : String) : unescape (e.text s).toList = s.toList := by
  rw [text, String.toList_ofList]
  induction s.toList with
  | nil => simp [unescape]
  | cons c cs ih =>
    rw [List.flatMap_cons]
    obtain entity | ⟨plain, kept⟩ := e.char_cases c
    · rw [entity.unescape_append, ih]
    · have other : c ≠ '&' := by
        rintro rfl
        exact plain (by decide)
      rw [kept, List.singleton_append, unescape, if_neg other, ih]

end Escaper
end StoryPreview.Text
