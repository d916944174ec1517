import Mathlib.Algebra.Order.BigOperators.Group.List
import Mathlib.Data.List.Nodup
import Mathlib.Data.List.Perm.Subperm
import StoryPreview.Proofs.Arguments.Surviving
import StoryPreview.Proofs.Number.Positional
/-!
Arguments are read back from the location that they were put into exactly if no value is changed on
the way. The code is read in the clear, so that a text with separators comes apart into several
parts. It is then lost for good: each value takes at least as many characters to be read as it has
in the clear, and there are no more characters than that.
-/
namespace StoryPreview

/-- The parts of a text have all of it but the separators. -/
theorem Text.sum_splitOn {α : Type} [BEq α] {sep : α} (as : List α) :
    ((splitOn sep as).map (·.length + 1)).sum = as.length + 1 := by
  induction as with
  | nil => rfl
  | cons a as ih =>
    simp only [splitOn]
    split
    · simp [ih, Nat.add_comm]
    · cases hs : splitOn sep as with
      | nil => exact absurd hs (splitOn_ne_nil sep as)
      | cons piece pieces =>
        rw [hs] at ih
        simp only [List.map_cons, List.sum_cons, List.length_cons] at ih ⊢
        omega

namespace Form
variable {cs : List Char}

theorem of_mem_map_plus {c : Char} (h : c ∈ cs.map fun c => if c = '+' then ' ' else c) :
    c = ' ' ∨ c ∈ cs ∧ c ≠ '+' := by
  obtain ⟨d, hd, he⟩ := List.mem_map.1 h
  split at he
  · exact .inl he.symm
  · rename_i hp
    exact .inr (he ▸ ⟨hd, hp⟩)

/-- Without escapes, plus signs are all that is read otherwise. -/
theorem StandsFor.of_percent (h : '%' ∉ cs) :
    StandsFor cs (cs.map fun c => if c = '+' then ' ' else c) := by
  intro rest
  have percent : '%' ∉ cs.map fun c => if c = '+' then ' ' else c := fun hm =>
    (of_mem_map_plus hm).elim (by decide) fun hm => h hm.1
  rw [List.map_append, Percent.bytes_append_of_notMem percent]

end Form

namespace Codec
open Text
variable {cs token : List Char} {v w : Argument} {m : Arguments} {e : String × Argument}

def KeyClear (k : String) : Prop := trim k.toList = k.toList ∧ ∀ c ∈ ['&', '#', '%', '+', ':', ';'],
    c ∉ k.toList

def Recovered : Argument → Prop
  | .bool _ => True
  | .number x => x.BelowSextillion
  | .text t => trim t.toList = t.toList ∧ ';' ∉ t.toList ∧ t ∉ ["true", "false", "!true",
    "!false"] ∧ (∀ x : Double, x.isFinite = true → x.spelling ≠ t.toList) ∧
    (Percent.decodeComponent? t.toList = none ∨ Percent.decodeComponent? t.toList = some t.toList)
  | .null => False

def seen : Argument → List Char
  | .text t => t.toList
  | v => (encodeValue v).map fun c => if c = '+' then ' ' else c

theorem KeyClear.survives {k : String} (h : KeyClear k) : KeySurvives k where
  kept := ⟨h.1, h.2 _ (by decide), h.2 _ (by decide)⟩
  clean := ⟨h.2 _ (by decide), h.2 _ (by decide)⟩
  plus := h.2 _ (by decide)
  escapes := by simpa [Percent.bytes] using Percent.bytes_append_of_notMem (h.2 '%' (by decide)) []

theorem standsFor_seen (v : Argument) : Form.StandsFor (encodeValue v) (seen v) := by
  cases v with
  | bool b => cases b <;> exact .of_percent (by decide)
  | number x => exact .of_percent fun hm => absurd (Double.isSpelled_of_mem hm) (by decide)
  | text t => exact Form.standsFor_encodeComponent t.toList
  | null => exact .nil

/-! ### Tokens -/

def inClear (token : List Char) : List Char := (Percent.decodeComponent? token).getD token

theorem length_inClear (token : List Char) : (inClear token).length ≤ token.length := by
  unfold inClear
  cases h : Percent.decodeComponent? token with
  | none => exact Nat.le_refl _
  | some cs => exact Percent.length_le_of_decodeComponent? h

theorem truth?_of_decodeToken_bool {b : Bool} (h : decodeToken token = .bool b) :
    truth? token = some b := by
  unfold decodeToken at h
  split at h
  · cases h
    assumption
  · unfold ofText at h
    split at h <;> cases h

theorem ofText_of_decodeToken (h : decodeToken token = v) (hv : ∀ b, v ≠ .bool b) :
    truth? token = none ∧ ofText (inClear token) = v := by
  unfold decodeToken at h
  split at h
  · exact absurd h.symm (hv _)
  · exact ⟨by assumption, h⟩

theorem spelling_of_decodeToken {x : Double} (h : decodeToken token = .number x) :
    x.isFinite = true ∧ x.spelling = trim (inClear token) := by
  obtain ⟨-, h⟩ := ofText_of_decodeToken h (by simp)
  unfold ofText at h
  split at h
  · rename_i hx
    cases h
    exact Double.of_ofSpelling? hx
  · cases h

theorem inClear_of_decodeToken {t : String} (h : decodeToken token = .text t) :
    inClear token = t.toList := by
  obtain ⟨-, h⟩ := ofText_of_decodeToken h (by simp)
  unfold ofText at h
  split at h
  · cases h
  · cases h
    exact String.toList_ofList.symm

theorem decodeToken_ne_null : decodeToken token ≠ .null := by
  intro h
  obtain ⟨-, h⟩ := ofText_of_decodeToken h (by simp)
  unfold ofText at h
  split at h <;> cases h

/-- A token that is read as a value has no fewer characters than the value in the clear. -/
theorem length_seen_le (h : (decodeToken token).same v = true) :
    (seen v).length ≤ token.length := by
  generalize hw : decodeToken token = w at h
  cases v with
  | bool b =>
    cases w with
    | bool a =>
      obtain rfl := beq_iff_eq.1 h
      have word := truth?_of_decodeToken_bool hw
      unfold truth? at word
      split at word
      · rename_i yes
        cases word
        obtain rfl | rfl := yes <;> decide
      · split at word
        · rename_i no
          cases word
          obtain rfl | rfl := no <;> decide
        · cases word
    | _ => cases h
  | number x =>
    cases w with
    | number y =>
      obtain ⟨-, spelled⟩ := spelling_of_decodeToken hw
      calc (seen (.number x)).length = y.spelling.length := by
            rw [Double.spelling_of_same h]
            exact List.length_map _
        _ = (trim (inClear token)).length := by rw [spelled]
        _ ≤ (inClear token).length := (trim_sublist _).length_le
        _ ≤ token.length := length_inClear token
    | _ => cases h
  | text t =>
    obtain rfl := same_text_iff.1 h
    rw [show seen (.text t) = inClear token from (inClear_of_decodeToken hw).symm]
    exact length_inClear token
  | null =>
    cases w with
    | null => exact absurd hw decodeToken_ne_null
    | _ => cases h

theorem trim_seen (h : (decodeToken (trim (seen v))).same v = true) : trim (seen v) = seen v :=
  (trim_sublist _).eq_of_length_le (length_seen_le h)

theorem recovered_number_iff {x : Double} :
    (decodeToken (trim (seen (.number x)))).same (.number x) = true ↔ x.BelowSextillion := by
  have plain (hx : '+' ∉ x.spelling) : seen (.number x) = encodeValue (.number x) :=
    Form.map_plus hx
  constructor
  · intro h
    have whole := trim_seen h
    rw [whole] at h
    generalize hw : decodeToken (seen (.number x)) = w at h
    cases w with
    | number y =>
      obtain ⟨finite, spelled⟩ := spelling_of_decodeToken hw
      have percent : '%' ∉ seen (.number x) := fun hm =>
        (Form.of_mem_map_plus hm).elim (by decide) fun hm =>
          absurd (Double.isSpelled_of_mem hm.1) (by decide)
      have same : x.spelling = seen (.number x) := by
        rw [← Double.spelling_of_same h, spelled, inClear,
          Percent.decodeComponent?_of_notMem percent, Option.getD_some, whole]
      refine (Double.plus_notMem_spelling_iff ?_).1 ?_
      · cases x <;> cases y <;> simp_all [Argument.same, Double.same, Double.isFinite]
      · rw [same]
        exact fun hm => (Form.of_mem_map_plus hm).elim (by decide) fun hm => hm.2 rfl
    | _ => cases h
  · intro below
    have finite : x.isFinite = true := by cases x <;> first | rfl | cases below
    rw [plain ((Double.plus_notMem_spelling_iff finite).2 below), trim_encodeValue]
    exact same_decodeToken_iff.2 finite

/-- A value without separators is read back exactly if it is one of those that a location gives
back. -/
theorem recovered_iff (semi : ';' ∉ seen v) : (decodeToken (trim (seen v))).same v = true ↔
    Recovered v := by
  cases v with
  | bool b => cases b <;> exact iff_of_true rfl trivial
  | number x => exact recovered_number_iff
  | text t =>
    have spelled (clear : trim t.toList = t.toList) : Double.ofSpelling? (trim t.toList) = none ↔
        ∀ x : Double, x.isFinite = true → x.spelling ≠ t.toList := by
      rw [clear]
      constructor
      · intro none x hx he
        rw [← he, Double.ofSpelling?_spelling hx] at none
        cases none
      · intro h
        cases hx : Double.ofSpelling? t.toList with
        | none => rfl
        | some x => exact absurd (Double.of_ofSpelling? hx).2 (h x (Double.of_ofSpelling? hx).1)
    have decoded : inClear t.toList = t.toList ↔
        Percent.decodeComponent? t.toList = none ∨
        Percent.decodeComponent? t.toList = some t.toList := by
      unfold inClear
      cases Percent.decodeComponent? t.toList <;> simp
    constructor
    · intro h
      have clear : trim t.toList = t.toList := trim_seen h
      rw [show seen (.text t) = t.toList from rfl, clear, same_text_iff] at h
      have whole := inClear_of_decodeToken h
      obtain ⟨words, number⟩ := (decodeToken_eq_text_iff rfl whole).1 h
      exact ⟨clear, semi, words, (spelled clear).1 number, decoded.1 whole⟩
    · rintro ⟨clear, -, words, number, escapes⟩
      rw [show seen (.text t) = t.toList from rfl, clear, same_text_iff]
      exact (decodeToken_eq_text_iff rfl (decoded.2 escapes)).2 ⟨words, (spelled clear).2 number⟩
  | null => exact iff_of_false (by decide +kernel) id

theorem semi_notMem_seen (h : Recovered v) : ';' ∉ seen v := by
  have token (w : Argument) : ';' ∉ (encodeValue w).map fun c => if c = '+' then ' ' else c :=
    fun hm =>
    (Form.of_mem_map_plus hm).elim (by decide) fun hm => absurd (isCoded_of_mem hm.1) (by decide)
  cases v with
  | text t => exact h.2.1
  | _ => exact token _

/-! ### Parts -/

/-- If texts come apart into parts, and each text can be charged to a part of its own that is as
heavy as all parts of the text together, then none of them has come apart. -/
theorem length_of_charged {α β : Type} {es : List α} {parts : α → List β} {charge : α → β}
    (weight : β → Nat) (positive : ∀ b, 0 < weight b) (filled : ∀ e ∈ es, 0 < (parts e).length)
    (distinct : (es.map charge).Nodup) (among : ∀ e ∈ es, charge e ∈ es.flatMap parts)
    (enough : ∀ e ∈ es, ((parts e).map weight).sum ≤ weight (charge e)) :
    ∀ e ∈ es, (parts e).length = 1 := by
  have charged : es.map charge ⊆ es.flatMap parts := by
    intro b hb
    obtain ⟨e, he, rfl⟩ := List.mem_map.1 hb
    exact among e he
  obtain ⟨kept, perm, sub⟩ := List.subperm_of_subset distinct charged
  obtain ⟨rest, split⟩ := sub.exists_perm_append
  have weights : ((es.flatMap parts).map weight).sum = ((es.map charge).map weight).sum +
      (rest.map weight).sum := by
    rw [(split.map weight).sum_eq, List.map_append, List.sum_append, (perm.map weight).sum_eq]
  have lengths : (es.flatMap parts).length = es.length + rest.length := by
    rw [split.length_eq, List.length_append, perm.length_eq, List.length_map]
  have light : ((es.flatMap parts).map weight).sum ≤ ((es.map charge).map weight).sum := by
    have total : ((es.flatMap parts).map weight).sum =
        (es.map fun e => ((parts e).map weight).sum).sum := by
      rw [List.map_flatMap, List.flatMap_def, List.sum_flatten, List.map_map]
      rfl
    rw [total, List.map_map]
    exact List.sum_le_sum enough
  have none : rest = [] := by
    cases rest with
    | nil => rfl
    | cons b rest =>
      have := positive b
      rw [List.map_cons, List.sum_cons] at weights
      omega
  rw [none, List.length_nil, Nat.add_zero, List.length_flatMap] at lengths
  intro e he
  by_contra many
  have more : (es.map fun _ => 1).sum < (es.map fun e => (parts e).length).sum :=
    List.sum_lt_sum _ _ filled ⟨e, he, Nat.lt_of_le_of_ne (filled e he) (Ne.symm many)⟩
  rw [lengths] at more
  simp at more

/-- Where each value is read, there is a part for it with its key, and with all characters of its
entry. -/
theorem exists_part (h : Arguments.same (decode cs) m = true) (he : e ∈ m.entries) :
    ∃ part ∈ splitOn ';' cs, (∃ token, Segment.ofText? part = some (.entry e.1.toList token)) ∧
      (entryText seen e).length ≤ part.length := by
  have known : e.1 ∈ (decode cs).keys :=
    (OrderedMap.keys_perm_of_agrees h).mem_iff.2 (List.mem_map_of_mem he)
  obtain ⟨read, hread, hkey⟩ := List.mem_map.1 known
  obtain ⟨v, hv, same⟩ := (OrderedMap.agrees_iff.1 h).2 read hread
  rw [hkey, show m.get? e.1 = some e.2 from Entries.get?_of_mem m.nodup he, Option.some.injEq] at hv
  obtain ⟨s, hs, hentry⟩ :=
    List.mem_filterMap.1 ((Entries.mem_of_mem_insertAll hread).resolve_left List.not_mem_nil)
  cases s with
  | malformed text => cases hentry
  | entry key token =>
    obtain rfl := Option.some.inj hentry
    obtain ⟨part, hpart, read⟩ := List.mem_filterMap.1 hs
    have long := length_seen_le (hv ▸ same)
    rw [← hkey, String.toList_ofList]
    refine ⟨part, hpart, ⟨token, read⟩, ?_⟩
    unfold Segment.ofText? at read
    split at read
    · rename_i before after split
      cases read
      obtain ⟨rfl, -⟩ := of_splitFirst? split
      have front := (trim_sublist before).length_le
      have back := (trim_sublist after).length_le
      simp only [entryText, ← hkey, String.toList_ofList, List.length_append, List.length_cons]
      omega
    · split at read <;> cases read

/-- Where all values are read from their texts in the clear, no text has separators. -/
theorem semi_notMem_of_same
    (h : Arguments.same (decode ([';'].intercalate (m.entries.map (entryText seen)))) m = true) :
    ∀ e ∈ m.entries, ';' ∉ entryText seen e := by
  by_cases hne : m.entries = []
  · simp [hne]
  have parts : splitOn ';' ([';'].intercalate (m.entries.map (entryText seen))) =
      m.entries.flatMap fun e => splitOn ';' (entryText seen e) := by
    rw [splitOn_intercalate_eq (by simpa using hne), List.flatMap_map]
  have piece : ∀ e ∈ m.entries, ∃ part ∈ m.entries.flatMap (fun e =>
      splitOn ';' (entryText seen e)),
      (∃ token, Segment.ofText? part = some (.entry e.1.toList token)) ∧
      (entryText seen e).length ≤ part.length :=
    fun e he => parts ▸ exists_part h he
  choose! charge among keyed long using piece
  -- An entry is charged to the part that was read for it. The keys tell these parts apart.
  have distinct : (m.entries.map charge).Nodup := by
    refine List.Nodup.map_on (fun e he d hd same => ?_) (List.Nodup.of_map _ m.nodup)
    obtain ⟨token, read⟩ := keyed e he
    obtain ⟨token', read'⟩ := keyed d hd
    rw [same, read', Option.some.injEq, Segment.entry.injEq, String.toList_inj] at read
    have value := Entries.get?_of_mem m.nodup he
    rw [← read.1, Entries.get?_of_mem m.nodup hd, Option.some.injEq] at value
    exact Prod.ext read.1.symm value.symm
  have whole := length_of_charged (fun part => part.length + 1) (fun _ => Nat.succ_pos _)
    (fun e _ => List.length_pos_iff.2 (splitOn_ne_nil ';' (entryText seen e))) distinct among
        fun e he => by
      rw [sum_splitOn]
      exact Nat.succ_le_succ (long e he)
  exact fun e he => notMem_of_length_splitOn (whole e he)

theorem decodeText_encode (h : ∀ k ∈ m.keys, KeyClear k) :
    Form.decodeText (encode m) = [';'].intercalate (m.entries.map (entryText seen)) := by
  rw [encode, encodeEntries_eq]
  exact (standsFor_entries fun e he => ⟨(h e.1 (List.mem_map_of_mem he)).survives,
    standsFor_seen e.2⟩).decodeText

/-- Arguments without separators in the clear are read back exactly if each value is. -/
theorem same_decode_seen_iff (hk : ∀ k ∈ m.keys, KeyClear k)
    (hv : ∀ e ∈ m.entries, ';' ∉ seen e.2) :
    Arguments.same (decode ([';'].intercalate (m.entries.map (entryText seen)))) m = true ↔
      ∀ e ∈ m.entries, Recovered e.2 := by
  have read :=
    entries_decode m.nodup (fun e he => (hk e.1 (List.mem_map_of_mem he)).survives.kept) hv
  have none :
      (({} : Arguments).mergedWith (decode ([';'].intercalate (m.entries.map (entryText seen))))) =
      decode ([';'].intercalate (m.entries.map (entryText seen))) := OrderedMap.ofEntries_entries _
  rw [← none, same_mergedWith_iff (fun v => decodeToken (trim (seen v))) (fun k hm =>
    absurd hm List.not_mem_nil) read]
  exact forall₂_congr fun e he => recovered_iff (hv e he)

end Codec

namespace Location
variable {l : Location} {args : Arguments}

/-- Arguments that were put into a location are read back from its search exactly if each of their
values is one that a location gives back. -/
theorem same_argumentsOf_urlWith_iff (hl : l.WellFormed) (hk : ∀ k ∈ args.keys, Codec.KeyClear k) :
    Arguments.same (argumentsOf (ofUrl (l.urlWith args)).search) args = true ↔
      ∀ e ∈ args.entries, Codec.Recovered e.2 := by
  have clean : CleanKeys args := fun k hm => (hk k hm).survives.clean
  rw [ofUrl_urlWith hl clean, argumentsOf_queryWith _ clean, Codec.decodeText_encode hk]
  constructor
  · intro same
    refine (Codec.same_decode_seen_iff hk fun e he hm => ?_).1 same
    exact Codec.semi_notMem_of_same same e he (List.mem_append_right _ (List.mem_cons_of_mem _ hm))
  · intro all
    exact (Codec.same_decode_seen_iff hk fun e he => Codec.semi_notMem_seen (all e he)).2 all

/-- A text with a percent sign that starts no escape, and a plus sign. -/
theorem same_argumentsOf_urlWith_percent :
    Arguments.same (argumentsOf (ofUrl ((⟨"/a", "?b=1&args=on:true", "#top"⟩ : Location).urlWith
      (.ofEntries [("on", .bool false), ("label", .text "50% + 1&")]))).search)
      (.ofEntries [("on", .bool false), ("label", .text "50% + 1&")]) = true := by
  refine (same_argumentsOf_urlWith_iff ⟨by simp, .inr ⟨_, rfl, by decide⟩, .inr ⟨_, rfl⟩⟩ ?_).2 ?_
  · intro k hk
    obtain rfl | hk := List.mem_cons.1 hk
    · exact ⟨by decide, by simp⟩
    · obtain rfl := List.mem_singleton.1 hk
      exact ⟨by decide, by simp⟩
  · intro e he
    obtain rfl | he := List.mem_cons.1 he
    · trivial
    · obtain rfl := List.mem_singleton.1 he
      refine ⟨by decide, by decide, by decide, fun x _ spelled => ?_, .inl (by decide)⟩
      have percent : '%' ∈ x.spelling := spelled ▸ (by decide)
      exact absurd (Double.isSpelled_of_mem percent) (by decide)

end Location
end StoryPreview
