import StoryPreview.Query.Form
import StoryPreview.Proofs.Query.Percent
import StoryPreview.Proofs.Text.Splitting
/-!
Queries read back: the pairs that a query was made of. No separator stands inside a written name or
value, so that the parts come apart where they were put together.
-/
namespace StoryPreview.Form

def isWritten (c : Char) : Bool := isKept c || c == '+' || c == '%'

theorem encodeText_eq (cs : List Char) :
    (encodeText cs).map (fun c => if c = '+' then ' ' else c) =
      Percent.encode (fun c => c == ' ' || isKept c) cs := by
  induction cs with
  | nil => rfl
  | cons c cs ih =>
    rw [encodeText, List.flatMap_cons, List.map_append, ← encodeText, ih,
      Percent.encode_cons fun c => c == ' ' || isKept c]
    congr 1
    by_cases hs : c = ' '
    · simp [hs]
    · have single : Percent.encode isKept [c] =
          if isKept c then [c] else (String.utf8EncodeChar c).flatMap Percent.escapeByte := by
        rw [Percent.encode_cons]
        exact List.append_nil _
      have plain : ∀ d ∈ Percent.encode isKept [c], d ≠ '+' := by
        rintro d hd rfl
        rcases Percent.mem_encode hd with ⟨hk, -⟩ | hp | ha
        · exact absurd hk (by decide)
        · exact absurd hp (by decide)
        · exact absurd ha (by decide)
      rw [if_neg hs, List.map_congr_left (g := id) fun d hd => by simp [plain d hd], List.map_id,
        single]
      simp [hs]

theorem decodeText_encodeText (cs : List Char) : decodeText (encodeText cs) = cs := by
  have percent : (fun c => c == ' ' || isKept c) '%' = false := by decide
  rw [decodeText, encodeText_eq, Percent.bytes_encode percent, Utf8.decodeLossy_encode]

theorem isWritten_of_mem {cs : List Char} {c : Char} (h : c ∈ encodeText cs) :
    isWritten c = true := by
  simp only [encodeText, List.mem_flatMap] at h
  obtain ⟨d, -, hc⟩ := h
  simp only [isWritten, Bool.or_eq_true, beq_iff_eq]
  split at hc
  · exact .inl (.inr (List.mem_singleton.1 hc))
  · rcases Percent.mem_encode hc with ⟨hk, -⟩ | hp | ha
    · exact .inl (.inl hk)
    · exact .inr hp
    · exact .inl (.inl (by simp [isKept, ha]))

theorem notMem_encodeText {c : Char} (h : isWritten c = false) (cs : List Char) :
    c ∉ encodeText cs := by
  intro hm
  rw [isWritten_of_mem hm] at h
  cases h

theorem readPair_writePair (p : String × String) : readPair (writePair p) = p := by
  have equals : '=' ∉ encodeText p.1.toList := notMem_encodeText (by decide) _
  rw [readPair, writePair, Text.splitFirst?_append equals]
  simp [decodeText_encodeText]

theorem read_append (as bs : List Char) : read (as ++ '&' :: bs) = read as ++ read bs := by
  simp only [read, Text.splitOn_append, List.filter_append, List.map_append]

theorem read_part {cs : List Char} (h : '&' ∉ cs) (hne : cs ≠ []) : read cs = [readPair cs] := by
  simp [read, Text.splitOn_of_notMem h, hne]

theorem notMem_writePair {c : Char} (h : isWritten c = false) (he : c ≠ '=') (p : String × String) :
    c ∉ writePair p := by
  simp only [writePair, List.mem_append, List.mem_cons, not_or]
  exact ⟨notMem_encodeText h _, he, notMem_encodeText h _⟩

theorem writePair_ne_nil (p : String × String) : writePair p ≠ [] := by simp [writePair]

theorem read_writePair (p : String × String) : read (writePair p) = [p] := by
  rw [read_part (notMem_writePair (by decide) (by decide) p) (writePair_ne_nil p),
    readPair_writePair]

theorem read_write (ps : List (String × String)) : read (write ps) = ps := by
  induction ps with
  | nil => rfl
  | cons p ps ih =>
    cases ps with
    | nil => exact read_writePair p
    | cons q ps => rw [write, read_append, read_writePair, ih, List.singleton_append]; simp

/-- A query has no other characters than those of written texts and the two separators. -/
theorem notMem_write {c : Char} (h : isWritten c = false) (he : c ≠ '=') (ha : c ≠ '&')
    (ps : List (String × String)) : c ∉ write ps := by
  induction ps with
  | nil => simp [write]
  | cons p ps ih =>
    cases ps with
    | nil => exact notMem_writePair h he p
    | cons q ps =>
      rw [write, List.mem_append, List.mem_cons]
      · exact fun hm => hm.elim (notMem_writePair h he p) fun hm => hm.elim ha ih
      · simp

theorem write_eq_nil {ps : List (String × String)} : write ps = [] ↔ ps = [] := by
  cases ps with
  | nil => simp [write]
  | cons p ps => cases ps <;> simp [write, writePair]

end StoryPreview.Form
