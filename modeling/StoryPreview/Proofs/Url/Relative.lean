import StoryPreview.Proofs.Text.Trimming
import StoryPreview.Proofs.Url.Kept
import StoryPreview.Proofs.Url.Origin
/-!
Paths with a query behind them, taken at an origin of the web. A kept path comes out as it stands,
and no other one does: escapes, resolved dots and a lost authority make another path of it.
-/
namespace StoryPreview.Url

variable {s : String} {cs : List Char}

theorem clean_slash (h : s.toList = '/' :: cs) : ∃ rest, clean s = '/' :: rest := by
  have start : s.toList.dropWhile (fun c : Char => c.toNat ≤ 0x20) = '/' :: cs := by
    rw [h, List.dropWhile_cons_of_neg (by decide)]
  have ends : ∃ rest, Text.dropEndWhile (fun c : Char => c.toNat ≤ 0x20) ('/' :: cs) =
      '/' :: rest :=
    (Text.dropEndWhile_cons _ '/' cs).resolve_left fun none =>
      absurd (Text.dropEndWhile_eq_nil.1 none '/' List.mem_cons_self) (by decide)
  obtain ⟨rest, ends⟩ := ends
  simp only [clean, start, ends]
  exact ⟨_, List.filter_cons_of_pos (by decide)⟩

theorem parse_slash (h : s.toList = '/' :: cs) : parse s = .error .noBase := by
  obtain ⟨rest, clean⟩ := clean_slash h
  have none : scheme? ('/' :: rest) = none := by
    unfold scheme?
    split
    · rename_i c scheme rest' split
      have first := (Text.of_splitFirst? split).1
      rw [List.cons_append, List.cons.injEq] at first
      rw [← first.1, if_neg (by simp [isLetter])]
    · rfl
  rw [parse, clean, none]

/-! ### Past an authority -/

/-- A text is what an authority leaves of another: nothing in front of it ends an authority. -/
def Leaves (rest cs : List Char) : Prop :=
  ∃ front, cs = front ++ rest ∧ ∀ c ∈ front, endsAuthority .web c = false

namespace Leaves
variable {as bs : List Char}

theorem refl (cs : List Char) : Leaves cs cs := ⟨[], rfl, by simp⟩

theorem trans (h : Leaves as bs) (h' : Leaves bs cs) : Leaves as cs := by
  obtain ⟨front, rfl, hf⟩ := h
  obtain ⟨front', rfl, hf'⟩ := h'
  exact ⟨front' ++ front, (List.append_assoc ..).symm,
    fun c hc => (List.mem_append.1 hc).elim (hf' c) (hf c)⟩

theorem drop (h : as <+: cs.takeWhile fun c => !endsAuthority .web c) :
    Leaves (cs.drop as.length) cs := by
  have front : as <+: cs := h.trans (List.takeWhile_prefix _)
  refine ⟨as, (List.prefix_iff_eq_append.1 front).symm, fun c hc => ?_⟩
  simpa using List.mem_takeWhile_imp (h.subset hc)

end Leaves

theorem leaves_of_dropUser {user : Bool} {rest : List Char}
    (h : dropUser .web cs = .ok (user, rest)) : Leaves rest cs := by
  simp only [dropUser] at h
  have front : ((cs.takeWhile fun c => !endsAuthority .web c).reverse.dropWhile
      (· ≠ '@')).reverse <+: cs.takeWhile fun c => !endsAuthority .web c := by
    rw [← List.reverse_suffix, List.reverse_reverse]
    exact List.dropWhile_suffix _
  have left := Leaves.drop front
  split at h
  · cases h
    exact .refl cs
  · split at h
    · split at h
      · split at h
        · cases h
        · cases h
          exact left
      · cases h
        exact left
    · cases h
      exact left

theorem not_endsAuthority_of_digit {c : Char} (h : isDigit c = true) :
    endsAuthority .web c = false := by
  rw [Bool.eq_false_iff]
  intro ends
  simp only [endsAuthority, SchemeKind.isSlash, Bool.or_eq_true, Bool.and_eq_true, beq_iff_eq]
    at ends
  rcases ends with ((rfl | ⟨rfl, -⟩) | rfl) | rfl <;> exact absurd h (by decide)

theorem leaves_of_dropPort {rest : List Char} (h : dropPort cs = .ok rest) : Leaves rest cs := by
  simp only [dropPort] at h
  split at h
  · cases h
  · have left : Leaves (cs.drop (cs.takeWhile isDigit).length) cs := by
      refine ⟨_, (List.prefix_iff_eq_append.1 (List.takeWhile_prefix isDigit)).symm, fun c hc => ?_⟩
      exact not_endsAuthority_of_digit (List.mem_takeWhile_imp hc)
    split at h
    · rename_i nothing
      cases h
      rwa [nothing] at left
    · rename_i c more split
      split at h
      · cases h
        rwa [split] at left
      · cases h

theorem leaves_of_dropAuthority {rest : List Char} (h : dropAuthority .web cs = .ok rest) :
    Leaves rest cs := by
  unfold dropAuthority at h
  cases past : dropUser .web cs with
  | error fault => simp [past, bind, Except.bind] at h
  | ok r =>
    obtain ⟨user, host⟩ := r
    have left := leaves_of_dropUser past
    refine Leaves.trans ?_ left
    simp only [past, bind, Except.bind] at h
    have name : Leaves (host.drop _) host :=
      .drop (List.take_prefix (hostLength false (host.takeWhile fun c => !endsAuthority .web c)) _)
    split at h
    · cases h
    · split at h
      · cases h
      · split at h
        · rename_i port colon
          split at h
          · cases h
          · refine (leaves_of_dropPort h).trans (Leaves.trans ⟨[':'], colon, ?_⟩ name)
            exact List.forall_mem_singleton.2 (by decide)
        · split at h
          · cases h
          · cases h
            exact name

/-! ### At an origin -/

variable {scheme path query : List Char}

theorem visible_of_kept {c : Char} (h : isKeptChar c = true) : 0x20 < c.toNat := by
  simp only [isKeptChar, isPathChar, Bool.and_eq_true, decide_eq_true_eq, Char.le_def,
    UInt32.le_iff_toNat_le] at h
  have first : ('!').val.toNat = 0x21 := by decide
  simp only [Char.toNat]
  omega

theorem clean_kept (hp : ∀ c ∈ path, isKeptChar c = true) (hq : QueryText query)
    (hs : s.toList = path ++ '?' :: query) : clean s = path ++ '?' :: query := by
  rw [← hs]
  refine clean_visible fun c hc => ?_
  rw [hs, List.mem_append, List.mem_cons] at hc
  rcases hc with hc | rfl | hc
  · exact visible_of_kept (hp c hc)
  · decide
  · exact hq.visible c hc

theorem splitQuery_kept (hp : ∀ c ∈ path, isKeptChar c = true) (hq : QueryText query) :
    splitQuery (path ++ '?' :: query) = (path, some query) :=
  splitQuery_append (fun hm => absurd (hp '?' hm) (by decide))
    (fun hm => absurd (hp '#' hm) (by decide)) hq.fragment

theorem path_afterAuthority (hw : SchemeKind.ofScheme scheme = .web) (cs : List Char) :
    (afterAuthority scheme cs).path = pathFrom .web [] (dropSlash .web (splitQuery cs).1) := by
  simp [afterAuthority, hw]

def rootOf (scheme : List Char) : Url := ⟨scheme, false, ['/'], none⟩

theorem relativeUrl_path (base : Url) (h : ∀ d more, cs = d :: more → d ≠ '/' ∧ d ≠ '\\') :
    relativeUrl base ('/' :: cs) = .ok (along base [] cs) := by
  cases cs with
  | nil => simp [relativeUrl]
  | cons d more => simp [relativeUrl, h d more rfl]

theorem relativeUrl_slashes (base : Url) (cs : List Char) :
    relativeUrl base ('/' :: '/' :: cs) = afterSlashes base.scheme cs := by simp [relativeUrl]

theorem relativeUrl_backslash (base : Url) (cs : List Char) : relativeUrl base ('/' :: '\\' :: cs) =
    afterSlashes base.scheme (cs.dropWhile fun e => e == '/' || e == '\\') := by simp [relativeUrl]

theorem join_root (hw : SchemeKind.ofScheme scheme = .web) (hc : clean s = '/' :: cs) :
    join (rootOf scheme) s = relativeUrl (rootOf scheme) ('/' :: cs) := by
  have notFile : kind (rootOf scheme) ≠ .file := by
    rw [kind, rootOf, hw]
    decide
  rw [join, hc]
  exact if_neg notFile

theorem path_along_root (hw : SchemeKind.ofScheme scheme = .web) (cs : List Char) :
    (along (rootOf scheme) [] cs).path = pathFrom .web [] (splitQuery cs).1 := by
  have web : kind (rootOf scheme) = .web := hw
  rw [along, web]

/-- What a text with a slash in front leads to has kept characters in its path only. -/
theorem kept_of_join (hw : SchemeKind.ofScheme scheme = .web) (hs : s.toList = '/' :: cs) {u : Url}
    (hu : join (rootOf scheme) s = .ok u) : ∀ c ∈ u.path, isKeptChar c = true := by
  have slashes {cs : List Char} (h : afterSlashes scheme cs = .ok u) : ∀ c ∈ u.path,
      isKeptChar c = true := by
    rw [afterSlashes, hw] at h
    cases rest : dropAuthority .web cs with
    | error fault => simp [rest, bind, Except.bind] at h
    | ok r =>
      simp only [rest, bind, Except.bind, Except.ok.injEq] at h
      rw [← h, path_afterAuthority hw]
      exact fun c hc => kept_of_mem_pathFrom hc
  obtain ⟨rest, clean⟩ := clean_slash hs
  rw [join_root hw clean] at hu
  by_cases single : ∀ d more, rest = d :: more → d ≠ '/' ∧ d ≠ '\\'
  · rw [relativeUrl_path _ single] at hu
    rw [← Except.ok.inj hu, path_along_root hw]
    exact fun c hc => kept_of_mem_pathFrom hc
  · obtain ⟨d, more, rfl, slash⟩ : ∃ d more, rest = d :: more ∧ (d = '/' ∨ d = '\\') := by
      simpa only [not_forall, exists_prop, not_and_or, not_not] using single
    rcases slash with rfl | rfl
    · rw [relativeUrl_slashes] at hu
      exact slashes hu
    · rw [relativeUrl_backslash] at hu
      exact slashes hu

/-- The question mark of a query ends an authority, if nothing before it does. -/
theorem rest_of_leaves {front rest : List Char} (split : path ++ '?' :: query = front ++ rest)
    (name : ∀ c ∈ front, endsAuthority .web c = false) :
    ∃ left, path = front ++ left ∧ rest = left ++ '?' :: query := by
  rcases List.append_eq_append_iff.1 split with ⟨more, rfl, mark⟩ | ⟨left, rfl, rest⟩
  · cases more with
    | nil => exact ⟨[], by simp, by simpa using mark.symm⟩
    | cons c more =>
      obtain ⟨rfl, -⟩ := List.cons.inj mark
      exact absurd (name '?' (List.mem_append_right _ List.mem_cons_self)) (by decide)
  · exact ⟨left, rfl, rest⟩

theorem dropSlash_suffix (k : SchemeKind) (cs : List Char) : dropSlash k cs <:+ cs := by
  unfold dropSlash
  split
  · split
    · exact List.suffix_cons ..
    · exact List.suffix_refl _
  · exact List.suffix_refl _

theorem length_of_join (hw : SchemeKind.ofScheme scheme = .web)
    (hp : ∀ c ∈ path, isKeptChar c = true) (hq : QueryText query)
    (hs : s.toList = '/' :: '/' :: path ++ '?' :: query) {u : Url}
    (hu : join (rootOf scheme) s = .ok u) : u.path.length < ('/' :: '/' :: path).length := by
  have all : ∀ c ∈ '/' :: '/' :: path, isKeptChar c = true := by simpa using ⟨by decide, hp⟩
  have clean : clean s = '/' :: '/' :: (path ++ '?' :: query) := clean_kept all hq hs
  rw [join_root hw clean, relativeUrl_slashes, rootOf, afterSlashes, hw] at hu
  cases left : dropAuthority .web (path ++ '?' :: query) with
  | error fault => simp [left, bind, Except.bind] at hu
  | ok r =>
    simp only [left, bind, Except.bind, Except.ok.injEq] at hu
    obtain ⟨front, split, name⟩ := leaves_of_dropAuthority left
    obtain ⟨rest, rfl, rfl⟩ := rest_of_leaves split name
    have keptRest : ∀ c ∈ rest, isKeptChar c = true := fun c hc => hp c (List.mem_append_right _ hc)
    rw [← hu, path_afterAuthority hw, splitQuery_kept keptRest hq]
    have slash := dropSlash_suffix .web rest
    have path : (pathFrom .web [] (dropSlash .web rest)).length ≤
        ('/' :: dropSlash .web rest).length :=
      (pathFrom_stands_or_shrinks fun c hc => keptRest c (slash.subset hc)).elim
        (fun h => h.2 ▸ Nat.le_refl _) fun h => h.2.le
    have short := slash.length_le
    simp only [List.length_cons, List.length_append] at path ⊢
    omega

/-- A path of kept characters behind one slash is walked along. -/
theorem join_single (hw : SchemeKind.ofScheme scheme = .web)
    (hp : ∀ c ∈ '/' :: path, isKeptChar c = true) (single : path.head? ≠ some '/')
    (hq : QueryText query) (hs : s.toList = '/' :: path ++ '?' :: query) :
    join (rootOf scheme) s = .ok (OriginOf.placed scheme (pathFrom .web [] path) query) := by
  have keptRest : ∀ c ∈ path, isKeptChar c = true := fun c hc => hp c (List.mem_cons_of_mem _ hc)
  have next : ∀ d more, path ++ '?' :: query = d :: more → d ≠ '/' ∧ d ≠ '\\' := by
    intro d more hd
    cases path with
    | nil =>
      obtain ⟨rfl, -⟩ := List.cons.inj hd
      decide
    | cons c path =>
      obtain ⟨rfl, -⟩ := List.cons.inj hd
      refine ⟨fun he => single (by rw [he, List.head?_cons]), ?_⟩
      rintro rfl
      exact absurd (keptRest '\\' List.mem_cons_self) (by decide)
  have web : kind (rootOf scheme) = .web := hw
  have clean : clean s = '/' :: (path ++ '?' :: query) := clean_kept hp hq hs
  rw [join_root hw clean, relativeUrl_path _ next, along, splitQuery_kept keptRest hq, web]
  rfl

/-- The path that comes out is the one that went in exactly if it is a kept path. -/
theorem join_path_iff (hw : SchemeKind.ofScheme scheme = .web) (slash : path.head? = some '/')
    (hq : QueryText query) (hs : s.toList = path ++ '?' :: query) :
    (∃ u, join (rootOf scheme) s = .ok u ∧ u.path = path) ↔ KeptPath path := by
  obtain ⟨rest, rfl⟩ := List.head?_eq_some_iff.1 slash
  have parts : Text.splitOn '/' ('/' :: rest) = [] :: Text.splitOn '/' rest := rfl
  constructor
  · rintro ⟨u, hu, same⟩
    have kept : ∀ c ∈ '/' :: rest, isKeptChar c = true := same ▸ kept_of_join hw hs hu
    have keptRest : ∀ c ∈ rest, isKeptChar c = true :=
      fun c hc => kept c (List.mem_cons_of_mem _ hc)
    have single : rest.head? ≠ some '/' := by
      intro double
      obtain ⟨path, rfl⟩ := List.head?_eq_some_iff.1 double
      have shorter :=
        length_of_join hw (fun c hc => keptRest c (List.mem_cons_of_mem _ hc)) hq hs hu
      rw [same] at shorter
      exact absurd shorter (Nat.lt_irrefl _)
    refine ⟨slash, single, kept, parts ▸ List.forall_mem_cons.2 ⟨by decide, ?_⟩⟩
    rw [join_single hw kept single hq hs] at hu
    cases hu
    refine (pathFrom_stands_or_shrinks keptRest).elim (fun h => h.1) fun h => ?_
    rw [show pathFrom .web [] rest = '/' :: rest from same] at h
    exact absurd h.2 (Nat.lt_irrefl _)
  · intro h
    refine ⟨_, join_single hw h.kept h.single hq hs, ?_⟩
    refine (pathFrom_stands_or_shrinks fun c hc => h.kept c (List.mem_cons_of_mem _ hc)).elim
      (fun h => h.2) ?_
    rintro ⟨⟨s, hs, dots⟩, -⟩
    exact absurd dots (h.named s (parts ▸ List.mem_cons_of_mem _ hs))

/-- A kept path comes out as it stands, with the query behind it. -/
theorem join_kept (hw : SchemeKind.ofScheme scheme = .web) (h : KeptPath path)
    (hq : QueryText query) (hs : s.toList = path ++ '?' :: query) :
    join (rootOf scheme) s = .ok (OriginOf.placed scheme path query) := by
  obtain ⟨u, hu, same⟩ := (join_path_iff hw h.slash hq hs).2 h
  obtain ⟨rest, rfl⟩ := List.head?_eq_some_iff.1 h.slash
  rw [join_single hw h.kept h.single hq hs] at hu ⊢
  cases hu
  exact congrArg (fun path => Except.ok (OriginOf.placed scheme path query)) same

end StoryPreview.Url
