import Mathlib.Data.List.TakeWhile
import StoryPreview.Url.Basic
import StoryPreview.Proofs.Url.Path
/-!
URLs at an origin of the web: an origin with a plain path and a query behind it, and the path and
query alone, taken at the origin, are the same URL.
-/
namespace StoryPreview.Url

def isAuthorityChar (c : Char) : Bool := 0x20 < c.toNat && !(c ∈ ['/', '\\', '?', '#', '@'])

structure OriginOf (scheme : List Char) (origin : String) (authority : List Char) : Prop where
  known : scheme ∈ ["http".toList, "https".toList]
  text : origin.toList = scheme ++ ':' :: '/' :: '/' :: authority
  plain : ∀ c ∈ authority, isAuthorityChar c = true
  accepted : ∃ u, parse origin = .ok u

def WebOrigin (origin : String) : Prop := ∃ scheme authority, OriginOf scheme origin authority

theorem WebOrigin.of_accepted {scheme authority : List Char} {origin : String}
    (known : scheme ∈ ["http".toList, "https".toList])
    (text : origin.toList = scheme ++ ':' :: '/' :: '/' :: authority)
    (plain : authority.all isAuthorityChar) (accepted : (parse origin).isOk) :
    WebOrigin origin := by
  refine ⟨scheme, authority, known, text, List.all_eq_true.1 plain, ?_⟩
  cases h : parse origin with
  | ok u => exact ⟨u, rfl⟩
  | error fault => simp [h, Except.isOk, Except.toBool] at accepted

theorem webOrigin_localhost : WebOrigin "http://localhost:8080" :=
  @WebOrigin.of_accepted "http".toList "localhost:8080".toList _ (by decide) (by decide)
    (by decide) (by decide +kernel)

structure QueryText (query : List Char) : Prop where
  visible : ∀ c ∈ query, 0x20 < c.toNat
  fragment : '#' ∉ query
  colon : ':' ∉ query

theorem clean_visible {s : String} (h : ∀ c ∈ s.toList, 0x20 < c.toNat) : clean s = s.toList := by
  have edge {cs : List Char} (hc : ∀ c ∈ cs, 0x20 < c.toNat) :
      cs.dropWhile (fun c : Char => c.toNat ≤ 0x20) = cs := by
    cases cs with
    | nil => rfl
    | cons c cs =>
      have visible := hc c (List.mem_cons_self ..)
      rw [List.dropWhile_cons_of_neg]
      simpa using visible
  simp only [clean, edge h, Text.dropEndWhile]
  rw [edge (by simpa using h), List.reverse_reverse, List.filter_eq_self]
  intro c hc
  have visible := h c hc
  have ne (d : Char) (hd : d.toNat ≤ 0x20) : c ≠ d := fun he => by
    rw [he] at visible
    omega
  simp [ne '\t' (by decide), ne '\n' (by decide), ne '\r' (by decide)]

theorem splitQuery_append {path query : List Char} (mark : '?' ∉ path) (hash : '#' ∉ path)
    (hq : '#' ∉ query) : splitQuery (path ++ '?' :: query) = (path, some query) := by
  have whole : (path ++ '?' :: query).takeWhile (· ≠ '#') = path ++ '?' :: query := by
    rw [List.takeWhile_eq_self_iff]
    intro c hc
    have hne : c ≠ '#' := by
      rintro rfl
      simp only [List.mem_append, List.mem_cons] at hc
      exact hc.elim hash fun hc => hc.elim (by decide) hq
    simpa using hne
  simp only [splitQuery, whole, Text.splitFirst?_append mark]

/-- Behind the host of an authority there is nothing, or a colon. -/
theorem drop_hostLength (inside : Bool) (cs : List Char) :
    cs.drop (hostLength inside cs) = [] ∨ ∃ ds, cs.drop (hostLength inside cs) = ':' :: ds := by
  induction cs generalizing inside with
  | nil => exact .inl rfl
  | cons c cs ih =>
    simp only [hostLength]
    split
    · rename_i h
      simp only [Bool.and_eq_true, beq_iff_eq] at h
      exact .inr ⟨cs, by simp [h.1]⟩
    · exact ih _

section Authority
variable {authority rest : List Char}

theorem not_endsAuthority {c : Char} (h : isAuthorityChar c = true) :
    endsAuthority .web c = false := by
  simp only [isAuthorityChar, Bool.and_eq_true, Bool.not_eq_true', decide_eq_false_iff_not,
    List.mem_cons, List.not_mem_nil, or_false, not_or] at h
  obtain ⟨-, slash, back, mark, hash, -⟩ := h
  simp [endsAuthority, SchemeKind.isSlash, slash, back, mark, hash]

def Behind (rest : List Char) : Prop := rest = [] ∨ ∃ cs, rest = '/' :: cs

theorem takeWhile_authority (h : ∀ c ∈ authority, isAuthorityChar c = true) (hr : Behind rest) :
    (authority ++ rest).takeWhile (fun c => !endsAuthority .web c) = authority := by
  have pos : ∀ c ∈ authority, (!endsAuthority .web c) = true :=
    fun c hc => by simp [not_endsAuthority (h c hc)]
  rw [List.takeWhile_append_of_pos pos]
  rcases hr with rfl | ⟨cs, rfl⟩
  · simp
  · rw [List.takeWhile_cons_of_neg (by decide), List.append_nil]

theorem dropUser_plain (h : ∀ c ∈ authority, isAuthorityChar c = true) (hr : Behind rest) :
    dropUser .web (authority ++ rest) = .ok (false, authority ++ rest) := by
  have none : authority.reverse.dropWhile (· ≠ '@') = [] := by
    rw [List.dropWhile_eq_nil_iff]
    intro c hc
    have hne : c ≠ '@' := by
      rintro rfl
      exact absurd (h '@' (List.mem_reverse.1 hc)) (by decide)
    simpa using hne
  simp only [dropUser, takeWhile_authority h hr, none, List.reverse_nil]

/-- Past a port, behind which there is nothing more of the authority. -/
theorem dropPort_append {port : List Char} (h : ∀ c ∈ port, isAuthorityChar c = true)
    (hr : Behind rest) {r : List Char} (hp : dropPort port = .ok r) :
    dropPort (port ++ rest) = .ok rest := by
  have digits : (port ++ rest).takeWhile isDigit = port.takeWhile isDigit := by
    rw [List.takeWhile_append]
    split
    · rename_i hlen
      have whole : port.takeWhile isDigit = port := (List.takeWhile_sublist _).eq_of_length hlen
      rcases hr with rfl | ⟨cs, rfl⟩
      · simp [whole]
      · rw [List.takeWhile_cons_of_neg (by decide), List.append_nil, whole]
    · rfl
  have le : (port.takeWhile isDigit).length ≤ port.length := (List.takeWhile_sublist _).length_le
  unfold dropPort at hp ⊢
  simp only [digits] at hp ⊢
  split at hp
  · cases hp
  · rename_i hvalue
    rw [if_neg hvalue, List.drop_append_of_le_length le]
    split at hp
    · rename_i hnil
      rw [hnil, List.nil_append]
      rcases hr with rfl | ⟨cs, rfl⟩
      · rfl
      · simp
    · rename_i c more hcons
      have hc : isAuthorityChar c = true :=
        h c (List.mem_of_mem_drop (hcons ▸ List.mem_cons_self ..))
      have ends := not_endsAuthority hc
      split at hp
      · rename_i hslash
        rcases hslash with rfl | rfl | rfl | rfl <;> exact absurd ends (by decide)
      · cases hp

/-- Past an authority that is accepted as a whole, with a path behind it. -/
theorem dropAuthority_append (h : ∀ c ∈ authority, isAuthorityChar c = true) (hr : Behind rest)
    {r : List Char} (ha : dropAuthority .web authority = .ok r) :
    dropAuthority .web (authority ++ rest) = .ok rest := by
  have bare := dropUser_plain h (.inl rfl : Behind [])
  have whole := takeWhile_authority h (.inl rfl : Behind [])
  simp only [List.append_nil] at bare whole
  unfold dropAuthority at ha ⊢
  rw [dropUser_plain h hr]
  rw [bare] at ha
  simp only [bind, Except.bind, whole, takeWhile_authority h hr] at ha ⊢
  split at ha
  · cases ha
  · rename_i hhost
    rw [if_neg hhost]
    split at ha
    · cases ha
    · have le : (authority.take (hostLength false authority)).length ≤ authority.length :=
        List.length_take_le' ..
      have behind : authority.drop (authority.take (hostLength false authority)).length =
          authority.drop (hostLength false authority) := by
        rw [List.length_take]
        rcases Nat.le_total (hostLength false authority) authority.length with hle | hle
        · rw [Nat.min_eq_left hle]
        · rw [Nat.min_eq_right hle, List.drop_length, List.drop_of_length_le hle]
      rw [List.drop_append_of_le_length le, behind]
      rw [behind] at ha
      rcases drop_hostLength false authority with hd | ⟨port, hd⟩
      · rw [hd, List.nil_append]
        rcases hr with rfl | ⟨cs, rfl⟩
        · simp
        · simp
      · rw [hd] at ha
        rw [hd, List.cons_append]
        simp only [] at ha ⊢
        split at ha
        · cases ha
        · rename_i hne
          rw [if_neg hne]
          refine dropPort_append (fun c hc => h c ?_) hr ha
          exact List.mem_of_mem_drop (hd ▸ List.mem_cons_of_mem _ hc)

end Authority

theorem afterAuthority_plain {scheme path query : List Char}
    (hs : SchemeKind.ofScheme scheme = .web) (hp : PlainPath ('/' :: path)) (hq : QueryText query) :
    afterAuthority scheme ('/' :: path ++ '?' :: query) = ⟨scheme, false, '/' :: path,
      some query⟩ := by
  have front := splitQuery_append (hp.notMem (c := '?') (by decide) (by decide))
    (hp.notMem (c := '#') (by decide) (by decide)) hq.fragment
  simp only [afterAuthority, front, hs, dropSlash]
  rw [if_neg (by simp), if_pos (by decide), pathFrom_plain hp]

namespace OriginOf
variable {scheme authority path query : List Char} {origin : String}

theorem ofScheme_eq (h : OriginOf scheme origin authority) : SchemeKind.ofScheme scheme = .web := by
  have known := h.known
  simp only [List.mem_cons, List.not_mem_nil, or_false] at known
  rcases known with rfl | rfl <;> decide

theorem scheme?_eq (h : OriginOf scheme origin authority) (rest : List Char) :
    scheme? (scheme ++ ':' :: rest) = some (scheme, rest) := by
  have known := h.known
  simp only [List.mem_cons, List.not_mem_nil, or_false] at known
  rcases known with rfl | rfl
  · rw [scheme?, Text.splitFirst?_append (by decide)]
    exact if_pos (by decide)
  · rw [scheme?, Text.splitFirst?_append (by decide)]
    exact if_pos (by decide)

theorem visible (h : OriginOf scheme origin authority) {c : Char} (hc : c ∈ origin.toList) :
    0x20 < c.toNat := by
  have all (word : List Char) (hw : (word.all fun d => 0x20 < d.toNat) = true) (hm : c ∈ word) :
      0x20 < c.toNat :=
    of_decide_eq_true (List.all_eq_true.1 hw c hm)
  have known := h.known
  simp only [List.mem_cons, List.not_mem_nil, or_false] at known
  rw [h.text, List.mem_append, List.mem_cons, List.mem_cons, List.mem_cons] at hc
  rcases hc with hc | rfl | rfl | rfl | hc
  · rcases known with rfl | rfl
    · exact all "http".toList (by decide) hc
    · exact all "https".toList (by decide) hc
  · decide
  · decide
  · decide
  · have plain := h.plain c hc
    simp only [isAuthorityChar, Bool.and_eq_true, decide_eq_true_eq] at plain
    exact plain.1

theorem parse_append (h : OriginOf scheme origin authority) (rest : String)
    (hv : ∀ c ∈ rest.toList, 0x20 < c.toNat) :
    parse (origin ++ rest) = afterSlashes scheme
      ((authority ++ rest.toList).dropWhile fun c => c == '/' || c == '\\') := by
  have clean : clean (origin ++ rest) =
      scheme ++ ':' :: ('/' :: '/' :: (authority ++ rest.toList)) := by
    rw [clean_visible, String.toList_append, h.text]
    · simp
    · intro c hc
      rw [String.toList_append, List.mem_append] at hc
      exact hc.elim h.visible (hv c)
  simp [parse, clean, h.scheme?_eq, h.ofScheme_eq]

theorem authority_ne (h : OriginOf scheme origin authority) (rest : List Char) :
    (authority ++ rest).dropWhile (fun c => c == '/' || c == '\\') = authority ++ rest := by
  obtain ⟨u, hu⟩ := h.accepted
  cases ha : authority with
  | nil =>
    have parsed := h.parse_append "" (by simp)
    have none : afterSlashes scheme [] = .error .emptyHost := by
      rw [afterSlashes, h.ofScheme_eq]
      rfl
    rw [String.append_empty, hu, ha] at parsed
    exact absurd (parsed.trans none) (by simp)
  | cons c cs =>
    have plain := h.plain c (ha ▸ List.mem_cons_self ..)
    simp only [isAuthorityChar, Bool.and_eq_true, Bool.not_eq_true', decide_eq_false_iff_not,
      List.mem_cons, List.not_mem_nil, or_false, not_or] at plain
    simp [plain.2.1, plain.2.2.1]

/-- The authority is accepted as a whole, and a path behind it is left. -/
theorem dropAuthority_eq (h : OriginOf scheme origin authority) {rest : List Char}
    (hr : Behind rest) : dropAuthority .web (authority ++ rest) = .ok rest := by
  obtain ⟨u, hu⟩ := h.accepted
  have parsed := h.parse_append "" (by simp)
  rw [String.append_empty, hu, String.toList_empty, h.authority_ne, List.append_nil, afterSlashes,
    h.ofScheme_eq] at parsed
  cases ha : dropAuthority .web authority with
  | error fault => simp [ha, bind, Except.bind] at parsed
  | ok r => exact dropAuthority_append h.plain hr ha

theorem afterSlashes_eq (h : OriginOf scheme origin authority) {rest : List Char}
    (hr : Behind rest) :
    afterSlashes scheme (authority ++ rest) = .ok (afterAuthority scheme rest) := by
  rw [afterSlashes, h.ofScheme_eq, h.dropAuthority_eq hr]
  rfl

theorem parse_eq (h : OriginOf scheme origin authority) :
    parse origin = .ok ⟨scheme, false, ['/'], none⟩ := by
  have parsed := h.parse_append "" (by simp)
  rw [String.append_empty, String.toList_empty, h.authority_ne, h.afterSlashes_eq (.inl rfl)]
    at parsed
  rw [parsed]
  simp [afterAuthority, h.ofScheme_eq, splitQuery, Text.splitFirst?, dropSlash, pathFrom,
    Text.splitOn, Trail.walk, isDotDot, isDot, isDot.lowerDots, Trail.keep, escapeSegment,
    Percent.encode, Trail.text]

def placed (scheme path query : List Char) : Url := ⟨scheme, false, path, some query⟩

variable {rest : String}

theorem visible_rest (hp : PlainPath path) (hq : QueryText query)
    (hr : rest.toList = path ++ '?' :: query) : ∀ c ∈ rest.toList, 0x20 < c.toNat := by
  intro c hc
  rw [hr, List.mem_append, List.mem_cons] at hc
  rcases hc with hc | rfl | hc
  · rcases hp.mem hc with rfl | hplain
    · decide
    · exact plain_visible hplain
  · decide
  · exact hq.visible c hc

theorem parse_absolute (h : OriginOf scheme origin authority) (hp : PlainPath path)
    (hq : QueryText query) (hr : rest.toList = path ++ '?' :: query) :
    parse (origin ++ rest) = .ok (placed scheme path query) := by
  obtain ⟨c, cs, rfl, -⟩ := hp.cases
  have behind : Behind ('/' :: c :: cs ++ '?' :: query) := .inr ⟨_, rfl⟩
  rw [h.parse_append rest (visible_rest hp hq hr), h.authority_ne, hr, h.afterSlashes_eq behind]
  exact congrArg _ (afterAuthority_plain h.ofScheme_eq hp hq)

theorem parse_relative (hp : PlainPath path) (hq : QueryText query)
    (hr : rest.toList = path ++ '?' :: query) : parse rest = .error .noBase := by
  have colon : ':' ∉ path ++ '?' :: query := by
    simp only [List.mem_append, List.mem_cons, not_or]
    exact ⟨hp.notMem (by decide) (by decide), by decide, hq.colon⟩
  rw [parse, clean_visible (visible_rest hp hq hr), hr, scheme?, Text.splitFirst?_of_notMem colon]

/-- Taken at an origin they are the same URL as with the origin in front. -/
theorem join_relative (h : OriginOf scheme origin authority) (hp : PlainPath path)
    (hq : QueryText query) (hr : rest.toList = path ++ '?' :: query) :
    join ⟨scheme, false, ['/'], none⟩ rest = .ok (placed scheme path query) := by
  obtain ⟨c, cs, rfl, hc⟩ := hp.cases
  have slash : c ≠ '/' ∧ c ≠ '\\' := by
    constructor <;> rintro rfl <;> exact absurd hc (by decide)
  have web : kind ⟨scheme, false, ['/'], none⟩ = .web := h.ofScheme_eq
  have front := splitQuery_append
    (fun hm => hp.notMem (c := '?') (by decide) (by decide) (List.mem_cons_of_mem _ hm))
    (fun hm => hp.notMem (c := '#') (by decide) (by decide) (List.mem_cons_of_mem _ hm)) hq.fragment
  have path_eq := pathFrom_plain hp
  rw [join, clean_visible (visible_rest hp hq hr), hr]
  rw [List.cons_append] at front
  simp [web, relativeUrl, slash, along, placed, front, path_eq]

end OriginOf

end StoryPreview.Url
