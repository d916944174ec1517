import StoryPreview.Proofs.Arguments.RoundTrip
/-!
Normal forms. Whatever text is read as a compact form, its keys are plain and its values normal: a
number is one that has a spelling of its own, and a text is not the spelling of a number. Written
and read again it is the same, unless it has one of the words for truth values as a text, which only
escapes can say.
-/
namespace StoryPreview

namespace Double
variable {cs : List Char} {x : Double}

theorem ofSpelling?_eq_none_iff : ofSpelling? cs = none ↔ ∀ x :
    Double, x.isFinite = true → x.spelling ≠ cs := by
  constructor
  · rintro none x finite rfl
    rw [ofSpelling?_spelling finite] at none
    cases none
  · intro other
    cases h : ofSpelling? cs with
    | none => rfl
    | some x =>
      obtain ⟨finite, spelled⟩ := of_ofSpelling? h
      exact absurd spelled (other x finite)

/-- Only the negative zero is written like another number. -/
theorem unsigned_eq_self_iff : x.unsigned = x ↔ x ≠ .finite true .zero := by
  cases x with
  | nan => simp [unsigned]
  | infinity negative => simp [unsigned]
  | finite negative m =>
    by_cases hm : m.significand = 0
    · obtain rfl := Magnitude.eq_zero_of_significand hm
      cases negative <;> simp [unsigned, Magnitude.zero]
    · have : m ≠ .zero := fun he => hm (he ▸ rfl)
      simp [unsigned, hm, this]

theorem unsigned_of_ofSpelling? (h : ofSpelling? cs = some x) : x.unsigned = x := by
  obtain ⟨finite, rfl⟩ := of_ofSpelling? h
  rw [ofSpelling?_spelling finite] at h
  exact Option.some.inj h

end Double

namespace Codec
variable {cs : List Char} {v : Argument} {m : Arguments}

def truthWords : List String := ["true", "false", "!true", "!false"]

/-- What a token can say: a truth value, a finite number other than the negative zero, or a text
that, without the blanks at its ends, is not how a finite number is written. -/
def Normal : Argument → Prop
  | .bool _ => True
  | .number x => x.isFinite = true ∧ x ≠ .finite true .zero
  | .text t => ∀ x : Double, x.isFinite = true → x.spelling ≠ Text.trim t.toList
  | .null => False

theorem normal_ofText (cs : List Char) : Normal (ofText cs) := by
  unfold ofText
  split
  · rename_i x h
    exact ⟨(Double.of_ofSpelling? h).1, Double.unsigned_eq_self_iff.1
      (Double.unsigned_of_ofSpelling? h)⟩
  · rename_i h
    rw [Normal, String.toList_ofList]
    exact Double.ofSpelling?_eq_none_iff.1 h

theorem normal_decodeToken (token : List Char) : Normal (decodeToken token) := by
  unfold decodeToken
  split
  · exact trivial
  · exact normal_ofText _

theorem normal_of_decode {e : String × Argument} (h : e ∈ (decode cs).entries) : Normal e.2 := by
  obtain h | h := Entries.mem_of_mem_insertAll h
  · cases h
  · obtain ⟨s, -, he⟩ := List.mem_filterMap.1 h
    cases s with
    | malformed text => cases he
    | entry key token =>
      cases he
      exact normal_decodeToken token

/-- A normal value is read back from its token, unless that is a word for a truth value. -/
theorem decodeToken_eq_self_iff (h : Normal v) : decodeToken (encodeValue v) = v ↔
    ∀ word ∈ truthWords, v ≠ .text word := by
  cases v with
  | null => exact h.elim
  | bool b => simp [decodeToken_bool]
  | number x => simp [decodeToken_number h.1, Double.unsigned_eq_self_iff.2 h.2]
  | text t =>
    have spelled : Double.ofSpelling? (Text.trim t.toList) = none :=
      Double.ofSpelling?_eq_none_iff.2 h
    rw [decodeToken_text_iff, ValueKept, and_iff_left spelled]
    simp [truthWords]

/-- Arguments with plain keys are read back as they were, in their order, exactly if each value is
read back from its token. -/
theorem decode_encode_eq_self_iff (hk : ∀ k ∈ m.keys, KeyKept k) :
    decode (encode m) = m ↔ ∀ e ∈ m.entries, decodeToken (encodeValue e.2) = e.2 := by
  have plain : ∀ e ∈ m.entries, KeyKept e.1 := fun e he => hk e.1 (List.mem_map_of_mem he)
  have entries : decode (encode m) = m ↔ (decode (encode m)).entries = m.entries :=
    ⟨congrArg OrderedMap.entries, OrderedMap.ext_entries⟩
  rw [entries, entries_decode_encode plain]
  constructor
  · intro same e he
    have := List.map_inj_left.1 (same.trans (List.map_id m.entries).symm) e he
    exact congrArg Prod.snd this
  · intro same
    refine (List.map_congr_left fun e he => ?_).trans (List.map_id m.entries)
    exact Prod.ext rfl (same e he)

/-- Reading normalizes. Its keys are distinct, trimmed and without separators, and its values are
normal; and what was read is written and read again without a change, in the same order, exactly if
none of its texts is a word for a truth value. -/
theorem decode_normalizes (cs : List Char) :
    ((decode cs).keys.Nodup ∧ (∀ k ∈ (decode cs).keys, KeyKept k) ∧ ∀ e ∈ (decode cs).entries,
      Normal e.2) ∧
      (decode (encode (decode cs)) = decode cs ↔ ∀ e ∈ (decode cs).entries, ∀ word ∈ truthWords,
        e.2 ≠ .text word) := by
  refine ⟨⟨(decode cs).nodup, fun k => keyKept_of_decode, fun e => normal_of_decode⟩, ?_⟩
  rw [decode_encode_eq_self_iff fun k => keyKept_of_decode]
  exact forall₂_congr fun e he => decodeToken_eq_self_iff (normal_of_decode he)

end Codec
end StoryPreview
