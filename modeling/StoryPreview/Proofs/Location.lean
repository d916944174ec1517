import StoryPreview.Location
import StoryPreview.Proofs.Arguments.Codec
import StoryPreview.Proofs.Query.Form
/-!
Arguments in a location: putting the same arguments into a location that has them already changes
nothing, and the location gives back the other parameters and the code of the arguments.
-/
namespace StoryPreview.Location

/-- A path without `?` and `#`, a search that is empty or starts with `?` and has no `#`, and a hash
that is empty or starts with `#`. -/
structure WellFormed (l : Location) : Prop where
  path : ∀ c ∈ l.path.toList, c ≠ '?' ∧ c ≠ '#'
  search : l.search.toList = [] ∨ ∃ cs, l.search.toList = '?' :: cs ∧ '#' ∉ cs
  hash : l.hash.toList = [] ∨ ∃ cs, l.hash.toList = '#' :: cs

theorem cut_fst (c : Char) (cs : List Char) : ∀ d ∈ (cut c cs).1, d ≠ c ∧ d ∈ cs := by
  intro d hd
  refine ⟨by simpa using List.all_eq_true.1 List.all_takeWhile d hd, ?_⟩
  exact (List.takeWhile_sublist _).subset hd

theorem cut_snd (c : Char) (cs : List Char) : (cut c cs).2 = [] ∨ ∃ ds, (cut c cs).2 = c :: ds := by
  induction cs with
  | nil => exact .inl rfl
  | cons d ds ih =>
    by_cases h : d = c
    · exact .inr ⟨ds, by simp [cut, h]⟩
    · simpa [cut, h] using ih

theorem cut_append (c : Char) (cs : List Char) : (cut c cs).1 ++ (cut c cs).2 = cs :=
  List.takeWhile_append_dropWhile

/-- A text without a character is cut off in front of it. -/
theorem cut_of_notMem {c : Char} {cs ds : List Char} (h : c ∉ cs)
    (hd : ds = [] ∨ ∃ es, ds = c :: es) : cut c (cs ++ ds) = (cs, ds) := by
  induction cs with
  | nil => rcases hd with rfl | ⟨es, rfl⟩ <;> simp [cut]
  | cons d cs ih =>
    simp only [List.mem_cons, not_or] at h
    have rest := ih h.2
    have hne : decide (d ≠ c) = true := decide_eq_true (Ne.symm h.1)
    simp only [cut, Prod.mk.injEq] at rest
    simp only [cut, List.cons_append, List.takeWhile_cons, List.dropWhile_cons, hne, if_true, rest]

/-- The location that a text says is well-formed, and its text is that text. -/
theorem ofUrl_wellFormed (url : String) : (ofUrl url).WellFormed where
  path := by
    intro c hc
    simp only [ofUrl, String.toList_ofList] at hc
    obtain ⟨hq, hm⟩ := cut_fst _ _ c hc
    exact ⟨hq, (cut_fst _ _ c hm).1⟩
  search := by
    simp only [ofUrl, String.toList_ofList]
    rcases cut_snd '?' (cut '#' url.toList).1 with h | ⟨ds, h⟩
    · exact .inl h
    · refine .inr ⟨ds, h, fun hm => ?_⟩
      have mem : '#' ∈ (cut '#' url.toList).1 := by
        rw [← cut_append '?' (cut '#' url.toList).1, h]
        simp [hm]
      exact (cut_fst _ _ _ mem).1 rfl
  hash := by
    simp only [ofUrl, String.toList_ofList]
    exact cut_snd '#' url.toList

theorem url_ofUrl (url : String) : (ofUrl url).url = url := by
  rw [← String.toList_inj]
  simp only [Location.url, ofUrl, String.toList_append, String.toList_ofList, cut_append]

def searchOf (query : List Char) : String := if query = [] then "" else String.ofList ('?' :: query)

theorem urlWith_eq (l : Location) (args : Arguments) :
    l.urlWith args = l.path ++ searchOf (queryWith l.search args) ++ l.hash := by
  unfold urlWith searchOf
  split
  · rename_i h
    simp [h]
  · rename_i h
    rw [if_neg h, ← String.toList_inj]
    simp

/-- Keys with which arguments can stand in a query. -/
def CleanKeys (args : Arguments) : Prop := ∀ k ∈ args.keys, '&' ∉ k.toList ∧ '#' ∉ k.toList

variable {l : Location} {args : Arguments}

def others (search : String) : List (String × String) :=
  (searchParams search).filter (·.1 ≠ argumentsName)

theorem hash_notMem_queryWith (search : String) (h : CleanKeys args) :
    '#' ∉ queryWith search args := by
  have written : '#' ∉ Form.write (others search) :=
    Form.notMem_write (by decide) (by decide) (by decide) _
  have code : '#' ∉ Codec.encode args :=
    Codec.notMem_encode (by decide) (by decide) (by decide) fun k hk => (h k hk).2
  unfold queryWith
  split
  · exact written
  · rename_i hne
    simp only [List.mem_append, List.mem_cons, not_or]
    refine ⟨⟨⟨written, ?_⟩, by decide⟩, by decide, code⟩
    split <;> simp

theorem ofUrl_urlWith (hl : l.WellFormed) (h : CleanKeys args) :
    ofUrl (l.urlWith args) = ⟨l.path, searchOf (queryWith l.search args), l.hash⟩ := by
  have search : (searchOf (queryWith l.search args)).toList = [] ∨
      ∃ cs, (searchOf (queryWith l.search args)).toList = '?' :: cs := by
    unfold searchOf
    split
    · exact .inl rfl
    · exact .inr ⟨_, String.toList_ofList⟩
  have clean : '#' ∉ (searchOf (queryWith l.search args)).toList := by
    unfold searchOf
    split
    · simp
    · simpa using hash_notMem_queryWith l.search h
  have front : '#' ∉ l.path.toList ++ (searchOf (queryWith l.search args)).toList := by
    simp only [List.mem_append, not_or]
    exact ⟨fun hm => (hl.path _ hm).2 rfl, clean⟩
  rw [ofUrl, urlWith_eq, String.toList_append, String.toList_append, cut_of_notMem front hl.hash]
  simp only [cut_of_notMem (fun hm => (hl.path _ hm).1 rfl) search, String.ofList_toList]

theorem searchParams_searchOf {query : List Char} (h : query.head? ≠ some '?') :
    searchParams (searchOf query) = Form.read query := by
  unfold searchParams searchOf
  split
  · rename_i hq
    simp [hq]
  · cases query with
    | nil => simp
    | cons c cs =>
      have hc : c ≠ '?' := by simpa using h
      simp [hc]

theorem head?_queryWith (search : String) (args : Arguments) :
    (queryWith search args).head? ≠ some '?' := by
  have written : '?' ∉ Form.write (others search) :=
    Form.notMem_write (by decide) (by decide) (by decide) _
  have head {cs : List Char} (h : '?' ∉ cs) : cs.head? ≠ some '?' :=
    fun he => h (List.mem_of_head? he)
  unfold queryWith
  split
  · exact head written
  · rw [← others]
    cases hw : Form.write (others search) with
    | nil => simp [argumentsName]
    | cons c cs =>
      rw [hw] at written
      simpa using fun he : c = '?' => written (by simp [he])

/-- The arguments parameter is read back under its name, with its code decoded as any other
value. -/
theorem readPair_arguments (code : List Char) :
    Form.readPair (argumentsName.toList ++ '=' :: code) = (argumentsName,
      String.ofList (Form.decodeText code)) := by
  have equals : '=' ∉ argumentsName.toList := by decide
  have name : Form.decodeText argumentsName.toList = argumentsName.toList := by
    have kept : Form.encodeText argumentsName.toList = argumentsName.toList := by decide
    rw [← kept, Form.decodeText_encodeText, kept]
  rw [Form.readPair, Text.splitFirst?_append equals]
  simp [name]

/-- The parameters of a location with arguments: the others, and the arguments if there are any. -/
theorem searchParams_queryWith (search : String) (h : CleanKeys args) :
    searchParams (searchOf (queryWith search args)) = others search ++
      if Codec.encode args = [] then []
      else [(argumentsName, String.ofList (Form.decodeText (Codec.encode args)))] := by
  have code : '&' ∉ Codec.encode args :=
    Codec.notMem_encode (by decide) (by decide) (by decide) fun k hk => (h k hk).1
  have part : '&' ∉ argumentsName.toList ++ '=' :: Codec.encode args := by
    simp only [List.mem_append, List.mem_cons, not_or]
    exact ⟨by decide, by decide, code⟩
  have ne : argumentsName.toList ++ '=' :: Codec.encode args ≠ [] := by simp
  rw [searchParams_searchOf (head?_queryWith search args)]
  unfold queryWith
  rw [← others]
  split
  · rename_i hc
    simp [hc, Form.read_write]
  · rename_i hc
    rw [if_neg hc]
    by_cases ho : Form.write (others search) = []
    · rw [ho, Form.write_eq_nil.1 ho]
      exact (Form.read_part part ne).trans (by rw [readPair_arguments]; rfl)
    · simp only [if_neg ho, List.append_assoc]
      rw [List.singleton_append, Form.read_append, Form.read_write, Form.read_part part ne,
        readPair_arguments]

theorem others_queryWith (search : String) (h : CleanKeys args) :
    others (searchOf (queryWith search args)) = others search := by
  rw [others, searchParams_queryWith search h, List.filter_append]
  have kept : (others search).filter (·.1 ≠ argumentsName) = others search := by
    rw [others, List.filter_filter]
    simp
  rw [kept]
  split
  · simp
  · simp

theorem queryWith_congr {s t : String} (h : others s = others t) :
    queryWith s args = queryWith t args := by
  unfold others at h
  simp only [queryWith, h]

/-- A location that has the arguments is the same with them put into it. -/
theorem urlWith_ofUrl_urlWith (hl : l.WellFormed) (h : CleanKeys args) :
    (ofUrl (l.urlWith args)).urlWith args = l.urlWith args := by
  rw [ofUrl_urlWith hl h, urlWith_eq, urlWith_eq]
  simp only [queryWith_congr (others_queryWith l.search h)]

def pairs (l : Location) : List (String × String) := Form.read (l.search.toList.drop 1)

/-- A search has one question mark at its start, if it is not empty. -/
theorem searchParams_eq_pairs (hl : l.WellFormed) (one : ∀ cs, l.search.toList ≠ '?' :: '?' :: cs) :
    searchParams l.search = l.pairs := by
  obtain hs | ⟨cs, hs, -⟩ := hl.search
  · rw [searchParams, pairs, hs]
    rfl
  · have head : cs.dropWhile (· == '?') = cs := by
      cases cs with
      | nil => rfl
      | cons c cs =>
        have hc : c ≠ '?' := fun he => one cs (he ▸ hs)
        simp [hc]
    rw [searchParams, pairs, hs, List.dropWhile_cons_of_pos (by rfl), head]
    rfl

/-- Putting arguments into a location leaves its path, its hash and the other named values as they
are, in their order and each as often, and adds the arguments at the end if there are any. Putting
them in once more changes nothing. -/
theorem urlWith_keeps_rest (l : Location) (args : Arguments) (hl : l.WellFormed)
    (one : ∀ cs, l.search.toList ≠ '?' :: '?' :: cs) (hk : CleanKeys args) :
    (ofUrl (l.urlWith args)).path = l.path ∧ (ofUrl (l.urlWith args)).hash = l.hash ∧
      (ofUrl (l.urlWith args)).pairs = l.pairs.filter (fun p => p.1 ≠ "args") ++
        (if args.entries = [] then []
          else [("args", String.ofList (Form.decodeText (Codec.encode args)))]) ∧
      (ofUrl (l.urlWith args)).urlWith args = l.urlWith args := by
  have put := ofUrl_urlWith hl hk
  refine ⟨by rw [put], by rw [put], ?_, urlWith_ofUrl_urlWith hl hk⟩
  have oneMore : ∀ cs, (ofUrl (l.urlWith args)).search.toList ≠ '?' :: '?' :: cs := by
    intro cs
    have head := head?_queryWith l.search args
    rw [put]
    simp only [searchOf]
    split
    · simp
    · rw [String.toList_ofList]
      intro h
      rw [(List.cons.inj h).2] at head
      exact head rfl
  rw [← searchParams_eq_pairs (ofUrl_wellFormed _) oneMore, put, searchParams_queryWith _ hk,
    others, searchParams_eq_pairs hl one]
  simp only [Codec.encode_eq_nil]
  rfl

/-- Broken escapes, empty names and repeated ones. -/
theorem urlWith_keeps_rest_broken :
    (ofUrl ((⟨"/a", "?=%zz&args=old:1&b=1+2&b=%ff", "#top?"⟩ : Location).urlWith
      (.ofEntries [("n", .number (.ofNat 1))]))).pairs =
      [("", "%zz"), ("b", "1 2"), ("b", "\uFFFD"), ("args", "n:1")] := by
  have kept := urlWith_keeps_rest ⟨"/a", "?=%zz&args=old:1&b=1+2&b=%ff", "#top?"⟩
    (.ofEntries [("n", .number (.ofNat 1))])
    ⟨by simp, .inr ⟨_, rfl, by decide⟩, .inr ⟨_, rfl⟩⟩ (fun cs h => by cases h)
    (by unfold CleanKeys; decide)
  rw [kept.2.2.1]
  decide +kernel

end StoryPreview.Location
