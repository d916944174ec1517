import StoryPreview.Proofs.Arguments.RoundTrip
import StoryPreview.Proofs.Location
/-!
Arguments in a location. The code of the arguments is put into a query as it is, but it is taken out
like any other value: a `+` becomes a space and escapes are read before the code comes apart. So
what is read is the code with its texts in the clear. Where that does no harm to keys and values,
the values that are read back are those that the code keeps.
-/
namespace StoryPreview

namespace Form
variable {cs ds as bs : List Char}

/-- Characters of a query that stand for a text, whatever follows them. -/
def StandsFor (cs ds : List Char) : Prop :=
  ∀ rest : List Char, Percent.bytes ((cs ++ rest).map fun c => if c = '+' then ' ' else c) =
    Utf8.encode ds ++ Percent.bytes (rest.map fun c => if c = '+' then ' ' else c)

theorem map_plus (h : '+' ∉ cs) : (cs.map fun c => if c = '+' then ' ' else c) = cs := by
  have same : ∀ c ∈ cs, (if c = '+' then ' ' else c) = c := fun c hc => if_neg fun he : c = '+' =>
    h (he ▸ hc)
  rw [List.map_congr_left same, List.map_id'']
  exact fun _ => rfl

theorem StandsFor.decodeText (h : StandsFor cs ds) : decodeText cs = ds := by
  have all := h []
  rw [List.append_nil] at all
  rw [Form.decodeText, all, List.map_nil, Percent.bytes, List.append_nil, Utf8.decodeLossy_encode]

theorem StandsFor.append (h : StandsFor cs ds) (h' : StandsFor as bs) :
    StandsFor (cs ++ as) (ds ++ bs) := by
  intro rest
  rw [List.append_assoc, h, h', ← List.append_assoc, Utf8.encode, Utf8.encode, Utf8.encode,
    List.flatMap_append]

theorem StandsFor.nil : StandsFor [] [] := fun _ => rfl

theorem StandsFor.of_notMem (plus : '+' ∉ cs) (percent : '%' ∉ cs) : StandsFor cs cs := by
  intro rest
  rw [List.map_append, map_plus plus, Percent.bytes_append_of_notMem percent]

theorem standsFor_encodeComponent (cs : List Char) : StandsFor (Percent.encodeComponent cs) cs := by
  have plus : '+' ∉ Percent.encodeComponent cs := by
    intro h
    obtain ⟨hk, -⟩ | hp | ha := Percent.mem_encode h
    · exact absurd hk (by decide)
    · exact absurd hp (by decide)
    · exact absurd ha (by decide)
  intro rest
  rw [List.map_append, map_plus plus, Percent.encodeComponent,
    Percent.bytes_encode_append (by decide)]

/-- A part that is no escape by itself, with the character after it. -/
theorem StandsFor.before {c : Char} (plus : '+' ∉ cs) (self : Percent.bytes cs = Utf8.encode cs)
    (hc : hexDigit? c = none) (hplus : c ≠ '+') (hpercent : c ≠ '%') :
    StandsFor (cs ++ [c]) (cs ++ [c]) := by
  intro rest
  have head : ((c :: rest).map fun c => if c = '+' then ' ' else c) =
      c :: rest.map fun c => if c = '+' then ' ' else c := by simp [hplus]
  have single : Utf8.encode [c] = String.utf8EncodeChar c := List.append_nil _
  rw [List.append_assoc, List.singleton_append, List.map_append, map_plus plus, head,
    Percent.bytes_append_cons hc, Percent.bytes_cons hpercent, self, ← List.append_assoc,
    Utf8.encode, Utf8.encode, List.flatMap_append, ← Utf8.encode, ← Utf8.encode, single]

end Form

namespace Codec
open Text
variable {m r defaults : Arguments} {e : String × Argument}

structure KeySurvives (k : String) : Prop where
  kept : KeyKept k
  clean : '&' ∉ k.toList ∧ '#' ∉ k.toList
  plus : '+' ∉ k.toList
  escapes : Percent.bytes k.toList = Utf8.encode k.toList

/-- The values that can be read in the clear: numbers are written without a plus sign, and texts
have no blanks at their ends, no separators and no escapes. -/
def Clear : Argument → Prop
  | .number x => '+' ∉ x.spelling
  | .text t =>
    trim t.toList = t.toList ∧ ';' ∉ t.toList ∧ (Percent.decodeComponent? t.toList).getD t.toList =
      t.toList
  | _ => True

def Carried (m : Arguments) : Prop := ∀ e ∈ m.entries, KeySurvives e.1 ∧ Clear e.2

def shown : Argument → List Char
  | .text t => t.toList
  | v => encodeValue v

theorem Carried.cleanKeys (h : Carried m) : Location.CleanKeys m := by
  intro k hk
  obtain ⟨e, he, rfl⟩ := List.mem_map.1 hk
  exact (h e he).1.clean

theorem standsFor_encodeValue {v : Argument} (h : Clear v) :
    Form.StandsFor (encodeValue v) (shown v) := by
  cases v with
  | bool b => cases b <;> exact .of_notMem (by decide) (by decide)
  | number x => exact .of_notMem h fun hm => absurd (Double.isSpelled_of_mem hm) (by decide)
  | text t => exact Form.standsFor_encodeComponent t.toList
  | null => exact .nil

theorem KeySurvives.standsFor {read : Argument → List Char} (hk : KeySurvives e.1)
    (hv : Form.StandsFor (encodeValue e.2) (read e.2)) :
    Form.StandsFor (entryText encodeValue e) (entryText read e) := by
  have key : Form.StandsFor (e.1.toList ++ [':']) (e.1.toList ++ [':']) :=
    .before hk.plus hk.escapes (by decide) (by decide) (by decide)
  simpa [entryText] using key.append hv

theorem standsFor_entries {es : Entries Argument} {read : Argument → List Char}
    (h : ∀ e ∈ es, KeySurvives e.1 ∧ Form.StandsFor (encodeValue e.2) (read e.2)) :
    Form.StandsFor ([';'].intercalate (es.map (entryText encodeValue)))
      ([';'].intercalate (es.map (entryText read))) := by
  induction es with
  | nil => exact .nil
  | cons e es ih =>
    obtain ⟨⟨hk, hv⟩, rest⟩ := List.forall_mem_cons.1 h
    have first := hk.standsFor hv
    cases es with
    | nil => simpa using first
    | cons d es =>
      have semi : Form.StandsFor [';'] [';'] := .of_notMem (by decide) (by decide)
      simpa using first.append (semi.append (ih rest))

theorem semi_notMem_shown {v : Argument} (h : Clear v) : ';' ∉ shown v := by
  have token : ';' ∉ encodeValue v := fun hm => absurd (isCoded_of_mem hm) (by decide)
  cases v with
  | text t => exact h.2.1
  | _ => exact token

/-- A value in the clear is read back exactly if its token is. -/
theorem same_decodeToken_shown_iff {v : Argument} (h : Clear v) :
    (decodeToken (trim (shown v))).same v = true ↔ ValueKept v := by
  have coded {w : Argument} (hw : shown w = encodeValue w) : (decodeToken (trim (shown w))).same w =
      true ↔ ValueKept w := by
    rw [hw, trim_encodeValue]
    exact same_decodeToken_iff
  cases v with
  | text t =>
    obtain ⟨trimmed, -, escapes⟩ := h
    rw [show shown (.text t) = t.toList from rfl, trimmed, same_text_iff]
    exact decodeToken_eq_text_iff rfl escapes
  | _ => exact coded rfl

/-- What is read from a query under the keys of arguments that it carries. -/
theorem entries_decode_shown (h : Carried m) : (decode (Form.decodeText (encode m))).entries =
    m.entries.map fun e => (e.1, decodeToken (trim (shown e.2))) := by
  have stands : ∀ e ∈ m.entries, KeySurvives e.1 ∧ Form.StandsFor (encodeValue e.2) (shown e.2) :=
    fun e he => ⟨(h e he).1, standsFor_encodeValue (h e he).2⟩
  rw [encode, encodeEntries_eq, (standsFor_entries stands).decodeText]
  exact entries_decode m.nodup (fun e he => (h e he).1.kept) fun e he =>
    semi_notMem_shown (h e he).2

/-- Entries with the keys of a map, laid over some that have no other keys, are as good as the map
exactly if each of them is. -/
theorem same_mergedWith_iff (value : Argument → Argument) (hd : ∀ k ∈ defaults.keys, k ∈ m.keys)
    (hr : r.entries = m.entries.map fun e => (e.1, value e.2)) :
    Arguments.same (defaults.mergedWith r) m = true ↔
      ∀ e ∈ m.entries, (value e.2).same e.2 = true := by
  have keys : r.keys = m.keys := by
    rw [OrderedMap.keys, hr]
    exact List.map_map
  have perm : (defaults.mergedWith r).keys.Perm m.keys := by
    refine (List.perm_ext_iff_of_nodup (defaults.mergedWith r).nodup m.nodup).2 fun k => ?_
    refine OrderedMap.mem_keys_mergedWith.trans ?_
    rw [keys]
    exact ⟨fun hk => hk.elim (hd k) id, .inr⟩
  have merged {x : String × Argument} (hx : x ∈ m.entries) : (defaults.mergedWith r).get? x.1 =
      some (value x.2) := by
    have written : r.get? x.1 = some (value x.2) := by
      refine Entries.get?_of_mem r.nodup ?_
      rw [hr]
      exact List.mem_map_of_mem hx
    rw [OrderedMap.get?_mergedWith, written, Option.some_or]
  have size : (defaults.mergedWith r).size = m.size := by
    have length := perm.length_eq
    simpa [OrderedMap.keys, Entries.keys, OrderedMap.size] using length
  rw [Arguments.same, OrderedMap.agrees_iff]
  constructor
  · rintro ⟨-, all⟩ x hx
    obtain ⟨w, hw, same⟩ := all (x.1, value x.2) (Entries.mem_of_get? (merged hx))
    rw [show m.get? x.1 = some x.2 from Entries.get?_of_mem m.nodup hx] at hw
    obtain rfl := Option.some.inj hw
    exact same
  · refine fun all => ⟨size, fun e he => ?_⟩
    have known : e.1 ∈ m.keys := perm.subset (List.mem_map_of_mem he)
    obtain ⟨x, hx, hk⟩ := List.mem_map.1 known
    have found : (defaults.mergedWith r).get? e.1 = some e.2 :=
      Entries.get?_of_mem (defaults.mergedWith r).nodup he
    rw [← hk, merged hx, Option.some.injEq] at found
    refine ⟨x.2, ?_, found ▸ all x hx⟩
    rw [← hk]
    exact Entries.get?_of_mem m.nodup hx

end Codec

namespace Location
variable {l : Location} {args defaults : Arguments}

theorem ofUrl_url (h : l.WellFormed) : ofUrl l.url = l := by
  have front : '#' ∉ l.path.toList ++ l.search.toList := by
    simp only [List.mem_append, not_or]
    refine ⟨fun hm => (h.path _ hm).2 rfl, ?_⟩
    obtain hs | ⟨cs, hs, hm⟩ := h.search
    · simp [hs]
    · rw [hs, List.mem_cons, not_or]
      exact ⟨by decide, hm⟩
  have search : l.search.toList = [] ∨ ∃ cs, l.search.toList = '?' :: cs := by
    obtain hs | ⟨cs, hs, -⟩ := h.search
    · exact .inl hs
    · exact .inr ⟨cs, hs⟩
  rw [ofUrl, Location.url, String.toList_append, String.toList_append, cut_of_notMem front h.hash]
  simp only [cut_of_notMem (fun hm => (h.path _ hm).1 rfl) search, String.ofList_toList]

/-- The arguments that are taken from the search of a query with arguments. -/
theorem argumentsOf_queryWith (search : String) (h : CleanKeys args) :
    argumentsOf (searchOf (queryWith search args)) =
      Codec.decode (Form.decodeText (Codec.encode args)) := by
  have other : (others search).find? (·.1 = argumentsName) = none := by
    rw [List.find?_eq_none]
    intro p hp
    simpa using (List.mem_filter.1 hp).2
  rw [argumentsOf, argumentsCode?, searchParams_queryWith search h, List.find?_append, other]
  split
  · rename_i hc
    rw [hc, Form.StandsFor.nil.decodeText]
    rfl
  · simp

/-- A story that declares no other keys starts with the arguments that its location carries exactly
if their code keeps the values. -/
theorem same_of_urlWith_iff (hl : l.WellFormed) (has : l.urlWith args = l.url)
    (h : Codec.Carried args) (hd : ∀ k ∈ defaults.keys, k ∈ args.keys) :
    Arguments.same (defaults.mergedWith (argumentsOf l.search)) args = true ↔
    ∀ e ∈ args.entries, Codec.ValueKept e.2 := by
  have search : l.search = searchOf (queryWith l.search args) := by
    have put := ofUrl_urlWith hl h.cleanKeys
    rw [has, ofUrl_url hl] at put
    exact congrArg Location.search put
  rw [search, argumentsOf_queryWith _ h.cleanKeys,
    Codec.same_mergedWith_iff (fun v => Codec.decodeToken (Text.trim (Codec.shown v))) hd
      (Codec.entries_decode_shown h)]
  exact forall₂_congr fun e he => Codec.same_decodeToken_shown_iff (h e he).2

end Location
end StoryPreview
