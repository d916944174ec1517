import StoryPreview.Proofs.Arguments.Codec
import StoryPreview.Proofs.Number.Reading
import StoryPreview.Proofs.OrderedMap
import StoryPreview.Proofs.Text.Splitting
import StoryPreview.Proofs.Text.Trimming
/-!
The compact form is read back: exactly the arguments with plain keys and values of which the token
says what they are come back as they were, and in their order.
-/
namespace StoryPreview

theorem Percent.decodeComponent?_of_notMem {cs : List Char} (h : '%' ∉ cs) :
    decodeComponent? cs = some cs := by
  have plain : wellFormed cs = true ∧ bytes cs = Utf8.encode cs := by
    induction cs with
    | nil => exact ⟨rfl, rfl⟩
    | cons c cs ih =>
      simp only [List.mem_cons, not_or] at h
      rw [wellFormed_cons (Ne.symm h.1), bytes_cons (Ne.symm h.1), (ih h.2).2]
      exact ⟨(ih h.2).1, rfl⟩
  rw [decodeComponent?, if_pos plain.1, plain.2, Utf8.decode?_encode]

namespace Codec
open Text
variable {cs : List Char} {k t : String} {v : Argument} {x : Double}

def KeyKept (k : String) : Prop := trim k.toList = k.toList ∧ ':' ∉ k.toList ∧ ';' ∉ k.toList

def ValueKept : Argument → Prop
  | .bool _ => True
  | .number x => x.isFinite = true
  | .text t => t ∉ ["true", "false", "!true", "!false"] ∧ Double.ofSpelling? (trim t.toList) = none
  | .null => False

theorem isBlank_of_isCoded {c : Char} (h : isCoded c = true) : isBlank c = false := by
  have listed (word : List Char) (hw : word.all (fun c => !isBlank c) = true) (h : c ∈ word) :
      isBlank c = false := by
    simpa using List.all_eq_true.1 hw c h
  have lettered (h : Percent.isAlphanumeric c = true) : isBlank c = false := by
    simp only [Percent.isAlphanumeric, Bool.or_eq_true, Bool.and_eq_true, decide_eq_true_eq,
      Char.le_def, UInt32.le_iff_toNat_le] at h
    have bounds : ('0').val.toNat = 48 ∧ ('9').val.toNat = 57 ∧ ('A').val.toNat = 65 ∧
        ('Z').val.toNat = 90 ∧ ('a').val.toNat = 97 ∧ ('z').val.toNat = 122 := by decide
    have value : c.toNat = c.val.toNat := rfl
    simp only [isBlank, Bool.or_eq_false_iff, Bool.and_eq_false_iff, beq_eq_false_iff_ne,
      decide_eq_false_iff_not]
    omega
  simp only [isCoded, isSpelled, Percent.isComponentChar, Bool.or_eq_true, List.contains_iff_mem,
    decide_eq_true_eq, beq_iff_eq] at h
  obtain ((h | h) | h | h) | rfl := h
  · exact lettered (by simp [Percent.isAlphanumeric, show ('0' ≤ c && c ≤ '9') = true from h])
  · exact listed _ (by decide) h
  · exact lettered h
  · exact listed _ (by decide) h
  · decide

theorem trim_encodeValue (v : Argument) : trim (encodeValue v) = encodeValue v :=
  trim_of_notBlank fun _ hc => isBlank_of_isCoded (isCoded_of_mem hc)

theorem truth?_eq_none_iff : truth? cs = none ↔
    cs ≠ "true".toList ∧ cs ≠ "false".toList ∧ cs ≠ "!true".toList ∧ cs ≠ "!false".toList := by
  unfold truth?
  split
  · rename_i h
    constructor
    · intro hn
      cases hn
    · rintro ⟨_, _, _, _⟩
      cases h <;> contradiction
  · rename_i h
    split
    · rename_i h
      constructor
      · intro hn
        cases hn
      · rintro ⟨_, _, _, _⟩
        cases h <;> contradiction
    · rename_i h'
      exact iff_of_true rfl ⟨fun e => h (.inl e), fun e => h' (.inl e), fun e => h' (.inr e),
        fun e => h (.inr e)⟩

/-! ### Tokens -/

theorem decodeToken_bool (b : Bool) : decodeToken (encodeValue (.bool b)) = .bool b := by
  cases b <;> rfl

theorem truth?_spelling (x : Double) : truth? x.spelling = none := by
  have absent (word : List Char) {c : Char} (hc : c ∈ word) (hs : isSpelled c = false) :
      x.spelling ≠ word := by
    rintro h
    have := Double.isSpelled_of_mem (h ▸ hc)
    simp [hs] at this
  exact truth?_eq_none_iff.2 ⟨absent _ (c := 'r') (by decide) (by decide),
    absent _ (c := 'l') (by decide) (by decide), absent _ (c := '!') (by decide) (by decide),
    absent _ (c := '!') (by decide) (by decide)⟩

theorem decodeToken_number (hx : x.isFinite = true) :
    decodeToken (encodeValue (.number x)) = .number x.unsigned := by
  have percent : '%' ∉ x.spelling := fun h => absurd (Double.isSpelled_of_mem h) (by decide)
  have trimmed : trim x.spelling = x.spelling := trim_encodeValue (.number x)
  rw [decodeToken, encodeValue, truth?_spelling, Percent.decodeComponent?_of_notMem percent,
    Option.getD_some, ofText, trimmed, Double.ofSpelling?_spelling hx]

/-- A token that is read as a number is not read as one of the others. -/
theorem isFinite_of_decodeToken (h : decodeToken cs = .number x) : x.isFinite = true := by
  unfold decodeToken at h
  split at h
  · cases h
  · unfold ofText at h
    split at h
    · rename_i hx
      cases h
      exact (Double.of_ofSpelling? hx).1
    · cases h

theorem truth?_encodeComponent (t : List Char) : truth? (Percent.encodeComponent t) = truth? t := by
  have same (word : List Char) (hw : ∀ c ∈ word, Percent.isComponentChar c = true) :
      Percent.encodeComponent t = word ↔ t = word := by
    have self : Percent.encodeComponent word = word := Percent.encode_eq_self hw
    constructor
    · intro h
      have back := Percent.decodeComponent?_encodeComponent t
      rw [h, ← self, Percent.decodeComponent?_encodeComponent] at back
      exact (Option.some.inj back).symm
    · rintro rfl
      exact self
  have yes := same "true".toList (List.all_eq_true.1 (by decide))
  have no := same "false".toList (List.all_eq_true.1 (by decide))
  have notYes := same "!true".toList (List.all_eq_true.1 (by decide))
  have notNo := same "!false".toList (List.all_eq_true.1 (by decide))
  simp only [truth?, yes, no, notYes, notNo]

theorem decodeToken_null : decodeToken (encodeValue .null) = .text "" := by decide +kernel

theorem ofText_eq_text_iff :
    ofText t.toList = .text t ↔ Double.ofSpelling? (trim t.toList) = none := by
  unfold ofText
  split <;> simp_all

theorem same_text_iff : v.same (.text t) = true ↔ v = .text t := by
  cases v <;> simp [Argument.same]

/-- A token that reads as a text is that text, unless the text is a word or a number. -/
theorem decodeToken_eq_text_iff {token : List Char} (words : truth? token = truth? t.toList)
    (decoded : (Percent.decodeComponent? token).getD token = t.toList) :
    decodeToken token = .text t ↔ ValueKept (.text t) := by
  have word : t ∉ ["true", "false", "!true", "!false"] ↔ truth? t.toList = none := by
    rw [truth?_eq_none_iff]
    simp [String.ext_iff]
  rw [ValueKept, word]
  cases h : truth? t.toList with
  | some b => simp [decodeToken, words, h]
  | none => simp [decodeToken, words, h, decoded, ofText_eq_text_iff]

theorem decodeToken_text_iff : decodeToken (encodeValue (.text t)) = .text t ↔
    ValueKept (.text t) :=
  decodeToken_eq_text_iff (truth?_encodeComponent t.toList)
    (by rw [encodeValue, Percent.decodeComponent?_encodeComponent, Option.getD_some])

/-- Exactly these values come back. -/
theorem same_decodeToken_iff : (decodeToken (encodeValue v)).same v = true ↔ ValueKept v := by
  cases v with
  | bool b => simp [decodeToken_bool, Argument.same, ValueKept]
  | null => simp [decodeToken_null, Argument.same, ValueKept]
  | number x =>
    constructor
    · intro h
      generalize ht : decodeToken (encodeValue (.number x)) = w at h
      cases w with
      | number y =>
        have hy := isFinite_of_decodeToken ht
        cases x <;> cases y <;> simp_all [Argument.same, Double.same, ValueKept, Double.isFinite]
      | _ => cases h
    · intro hx
      rw [decodeToken_number hx]
      exact Double.same_unsigned hx
  | text t =>
    rw [same_text_iff]
    exact decodeToken_text_iff

/-! ### Entries -/

def entryText (token : Argument → List Char) (e : String × Argument) : List Char :=
  e.1.toList ++ ':' :: token e.2

theorem encodeEntries_eq (es : Entries Argument) :
    encodeEntries es = [';'].intercalate (es.map (entryText encodeValue)) := by
  induction es with
  | nil => rfl
  | cons e es ih =>
    cases es with
    | nil => simp [encodeEntries, encodeEntry, entryText]
    | cons d es =>
      rw [encodeEntries, ih]
      · simp [encodeEntry, entryText]
      · simp

theorem ofText?_entryText (hk : KeyKept k) (token : Argument → List Char) (v : Argument) :
    Segment.ofText? (entryText token (k, v)) = some (.entry k.toList (trim (token v))) := by
  rw [Segment.ofText?, entryText, splitFirst?_append hk.2.1]
  simp only [hk.1]

/-- With plain keys, and values that are written without separators, each entry is read by
itself. -/
theorem entries_decode {es : Entries Argument} (distinct : es.keys.Nodup)
    {token : Argument → List Char} (hk : ∀ e ∈ es, KeyKept e.1) (ht : ∀ e ∈ es, ';' ∉ token e.2) :
    (decode ([';'].intercalate (es.map (entryText token)))).entries =
      es.map fun e => (e.1, decodeToken (trim (token e.2))) := by
  have read : (segments ([';'].intercalate (es.map (entryText token)))).filterMap Segment.entry? =
      es.map fun e => (e.1, decodeToken (trim (token e.2))) := by
    by_cases hne : es = []
    · rw [hne]
      rfl
    have parts : ∀ piece ∈ es.map (entryText token), ';' ∉ piece := by
      rintro _ hp hm
      obtain ⟨e, he, rfl⟩ := List.mem_map.1 hp
      simp only [entryText, List.mem_append, List.mem_cons] at hm
      obtain hm | hm | hm := hm
      · exact (hk e he).2.2 hm
      · exact absurd hm (by decide)
      · exact ht e he hm
    rw [segments, splitOn_intercalate (by simpa using hne) parts, List.filterMap_map,
      List.filterMap_filterMap, ← List.filterMap_eq_map]
    refine List.filterMap_congr fun e he => ?_
    simp [ofText?_entryText (hk e he), Segment.entry?]
  rw [decode, Arguments.ofEntries, read]
  refine OrderedMap.entries_ofEntries ?_
  rw [Entries.keys, List.map_map]
  exact distinct

theorem entries_decode_encode {m : Arguments} (hk : ∀ e ∈ m.entries, KeyKept e.1) :
    (decode (encode m)).entries = m.entries.map fun e => (e.1, decodeToken (encodeValue e.2)) := by
  rw [encode, encodeEntries_eq, entries_decode m.nodup hk fun e _ h =>
    absurd (isCoded_of_mem h) (by decide)]
  simp only [trim_encodeValue]

theorem keyKept_of_segment {key token : List Char} (hs : Segment.entry key token ∈ segments cs) :
    KeyKept (String.ofList key) := by
  obtain ⟨piece, hp, hs⟩ := List.mem_filterMap.1 hs
  have semi := notMem_of_mem_splitOn hp
  unfold Segment.ofText? at hs
  split at hs
  · rename_i before after split
    cases hs
    obtain ⟨rfl, colon⟩ := of_splitFirst? split
    rw [KeyKept, String.toList_ofList]
    exact ⟨trim_trim before, fun h => colon (mem_of_mem_trim h),
      fun h => semi (List.mem_append_left _ (mem_of_mem_trim h))⟩
  · split at hs <;> cases hs

theorem keyKept_of_decode (h : k ∈ (decode cs).keys) : KeyKept k := by
  rw [decode, Arguments.ofEntries, OrderedMap.mem_keys_ofEntries] at h
  obtain ⟨e, he, rfl⟩ := List.mem_map.1 h
  obtain ⟨s, hs, he⟩ := List.mem_filterMap.1 he
  cases s with
  | malformed text => cases he
  | entry key token =>
    cases he
    exact keyKept_of_segment hs

end Codec

/-- Arguments are read back from their compact form exactly if all their keys are plain and all
their values are kept, and then in their order. -/
theorem Codec.decode_encode_same_iff (m : Arguments) :
    ((decode (encode m)).same m = true ↔ ∀ e ∈ m.entries, KeyKept e.1 ∧ ValueKept e.2) ∧
      ((∀ e ∈ m.entries, KeyKept e.1 ∧ ValueKept e.2) → (decode (encode m)).keys = m.keys) := by
  have keys (hk : ∀ e ∈ m.entries, KeyKept e.1) : (decode (encode m)).keys = m.keys := by
    rw [OrderedMap.keys, entries_decode_encode hk]
    exact List.map_map
  have values (hk : ∀ e ∈ m.entries, KeyKept e.1) :
      (decode (encode m)).same m = true ↔ ∀ e ∈ m.entries, ValueKept e.2 := by
    have size : (decode (encode m)).size = m.size := by
      rw [OrderedMap.size, entries_decode_encode hk, List.length_map]
      rfl
    have value {e : String × Argument} (he : e ∈ m.entries) : m.get? e.1 = some e.2 :=
      Entries.get?_of_mem m.nodup he
    rw [Arguments.same, OrderedMap.agrees_iff, entries_decode_encode hk, List.forall_mem_map]
    constructor
    · rintro ⟨-, h⟩ e he
      obtain ⟨w, hw, same⟩ := h e he
      rw [value he] at hw
      cases hw
      exact same_decodeToken_iff.1 same
    · intro h
      exact ⟨size, fun e he => ⟨e.2, value he, same_decodeToken_iff.2 (h e he)⟩⟩
  refine ⟨⟨fun h => ?_, fun h => (values fun e he => (h e he).1).2 fun e he => (h e he).2⟩,
    fun h => keys fun e he => (h e he).1⟩
  have plain : ∀ e ∈ m.entries, KeyKept e.1 := fun e he =>
    keyKept_of_decode ((OrderedMap.keys_perm_of_agrees h).mem_iff.2 (List.mem_map.2 ⟨e, he, rfl⟩))
  exact fun e he => ⟨plain e he, (values plain).1 h e he⟩

end StoryPreview
