import StoryPreview.Url.Path
import StoryPreview.Proofs.Query.Percent
import StoryPreview.Proofs.Text.Splitting
/-!
Plain paths: segments of letters, digits and a few marks, each behind a slash. A web URL keeps a
plain path as it stands.
-/
namespace StoryPreview.Url

def isPlainChar (c : Char) : Bool := Percent.isAlphanumeric c || c ∈ ['-', '_', '.', '~']

structure PlainSegment (s : List Char) : Prop where
  ne_nil : s ≠ []
  plain : ∀ c ∈ s, isPlainChar c = true
  ne_dot : s ≠ ['.']
  ne_dotDot : s ≠ ['.', '.']

instance (s : List Char) : Decidable (PlainSegment s) :=
  decidable_of_iff (s ≠ [] ∧ s.all isPlainChar ∧ s ≠ ['.'] ∧ s ≠ ['.', '.'])
    ⟨fun ⟨ne, plain, dot, dots⟩ => ⟨ne, List.all_eq_true.1 plain, dot, dots⟩,
      fun h => ⟨h.ne_nil, List.all_eq_true.2 h.plain, h.ne_dot, h.ne_dotDot⟩⟩

def PlainPath (path : List Char) : Prop :=
  ∃ segments : List (List Char), segments ≠ [] ∧ (∀ s ∈ segments, PlainSegment s) ∧
    path = segments.flatMap ('/' :: ·)

variable {s : List Char}

theorem not_isPlainChar {c : Char} (h : isPlainChar c = false)
    (hs : ∀ d ∈ s, isPlainChar d = true) : c ∉ s :=
  fun hm => by simp [hs c hm] at h

theorem lowerDots_of_plain (h : ∀ c ∈ s, isPlainChar c = true) : isDot.lowerDots s = s := by
  induction s with
  | nil => rfl
  | cons c s ih =>
    have rest := ih fun d hd => h d (List.mem_cons_of_mem c hd)
    have percent : c ≠ '%' := by
      rintro rfl
      exact absurd (h '%' (List.mem_cons_self ..)) (by decide)
    unfold isDot.lowerDots
    split
    · exact absurd (List.cons.inj ‹_›).1 percent
    · rename_i heq
      obtain ⟨rfl, rfl⟩ := List.cons.inj heq
      rw [rest]
    · rfl

namespace PlainSegment

theorem isDot_eq (h : PlainSegment s) : isDot s = false := by
  rw [isDot, lowerDots_of_plain h.plain]
  exact beq_eq_false_iff_ne.2 h.ne_dot

theorem isDotDot_eq (h : PlainSegment s) : isDotDot s = false := by
  rw [isDotDot, lowerDots_of_plain h.plain]
  exact beq_eq_false_iff_ne.2 h.ne_dotDot

theorem slash_notMem (h : PlainSegment s) : '/' ∉ s := not_isPlainChar (by decide) h.plain

end PlainSegment

theorem plain_lt {c : Char} (h : isPlainChar c = true) : c.toNat < 128 := by
  simp only [isPlainChar, Bool.or_eq_true, decide_eq_true_eq, List.mem_cons, List.not_mem_nil,
    or_false] at h
  rcases h with h | rfl | rfl | rfl | rfl
  · exact Percent.alphanumeric_lt h
  all_goals decide

theorem plain_visible {c : Char} (h : isPlainChar c = true) : 0x20 < c.toNat := by
  have ascii : ∀ n < 128, isPlainChar (Char.ofNat n) = true → 0x20 < (Char.ofNat n).toNat := by
    decide
  have key := ascii c.toNat (plain_lt h)
  rw [Char.ofNat_toNat] at key
  exact key h

theorem isPathChar_of_plain {c : Char} (h : isPlainChar c = true) : isPathChar c = true := by
  have ascii : ∀ n < 128, isPlainChar (Char.ofNat n) = true → isPathChar (Char.ofNat n) = true := by
    decide
  have key := ascii c.toNat (plain_lt h)
  rw [Char.ofNat_toNat] at key
  exact key h

theorem escapeSegment_of_plain (h : ∀ c ∈ s, isPlainChar c = true) : escapeSegment s = s :=
  Percent.encode_eq_self fun c hc => isPathChar_of_plain (h c hc)

theorem walk_text (done : List (List Char)) {more : List (List Char)} (hs : PlainSegment s)
    (hm : ∀ t ∈ more, PlainSegment t) : (Trail.walk .web done (s :: more)).text .web =
      '/' :: (done.reverse.flatMap (fun t => t ++ ['/']) ++ (s ++ more.flatMap ('/' :: ·))) := by
  have kept (ds : List (List Char)) {t : List Char} (h : PlainSegment t) :
      Trail.keep .web ds (escapeSegment t) = t := escapeSegment_of_plain h.plain
  induction more generalizing done s with
  | nil =>
    rw [Trail.walk, if_neg (by simp [hs.isDotDot_eq]), if_neg (by simp [hs.isDot_eq]), kept done hs]
    simp [Trail.text]
  | cons t more ih =>
    have rest := ih (s :: done) (hm t (List.mem_cons_self ..)) fun u hu =>
      hm u (List.mem_cons_of_mem t hu)
    rw [Trail.walk, if_neg (by simp [hs.isDotDot_eq]), if_neg (by simp [hs.isDot_eq]),
      kept done hs, rest]
    · simp
    · simp

theorem splitOn_segments {more : List (List Char)} (hs : PlainSegment s)
    (hm : ∀ t ∈ more, PlainSegment t) :
    Text.splitOn '/' (s ++ more.flatMap ('/' :: ·)) = s :: more := by
  induction more generalizing s with
  | nil => simpa using Text.splitOn_of_notMem hs.slash_notMem
  | cons t more ih =>
    have rest := ih (hm t (List.mem_cons_self ..)) fun u hu => hm u (List.mem_cons_of_mem t hu)
    rw [List.flatMap_cons, List.cons_append, Text.splitOn_append, rest,
      Text.splitOn_of_notMem hs.slash_notMem]
    rfl

theorem PlainPath.mem {path : List Char} (h : PlainPath path) {c : Char} (hc : c ∈ path) :
    c = '/' ∨ isPlainChar c = true := by
  obtain ⟨segments, -, plain, rfl⟩ := h
  obtain ⟨s, hs, hc⟩ := List.mem_flatMap.1 hc
  rcases List.mem_cons.1 hc with rfl | hc
  · exact .inl rfl
  · exact .inr ((plain s hs).plain c hc)

theorem PlainPath.notMem {path : List Char} (h : PlainPath path) {c : Char}
    (hc : isPlainChar c = false) (hs : c ≠ '/') : c ∉ path := by
  intro hm
  rcases h.mem hm with rfl | hp
  · exact hs rfl
  · simp [hp] at hc

theorem PlainPath.cases {path : List Char} (h : PlainPath path) :
    ∃ c cs, path = '/' :: c :: cs ∧ isPlainChar c = true := by
  obtain ⟨segments, ne, plain, rfl⟩ := h
  cases segments with
  | nil => exact absurd rfl ne
  | cons s more =>
    have hs := plain s (List.mem_cons_self ..)
    cases s with
    | nil => exact absurd rfl hs.ne_nil
    | cons c cs => exact ⟨c, _, rfl, hs.plain c (List.mem_cons_self ..)⟩

theorem pathFrom_plain {path : List Char} (h : PlainPath ('/' :: path)) :
    pathFrom .web [] path = '/' :: path := by
  have slashed : path.map (fun c => if SchemeKind.isSlash .web c then '/' else c) = path := by
    refine (List.map_congr_left (g := id) fun c hc => ?_).trans (List.map_id _)
    have hb : c ≠ '\\' := by
      rintro rfl
      exact h.notMem (by decide) (by decide) (List.mem_cons_of_mem _ hc)
    by_cases hslash : c = '/'
    · simp [hslash]
    · simp [SchemeKind.isSlash, hslash, hb]
  obtain ⟨segments, ne, plain, hpath⟩ := h
  cases segments with
  | nil => exact absurd rfl ne
  | cons s more =>
    have hs := plain s (List.mem_cons_self ..)
    have hm : ∀ t ∈ more, PlainSegment t := fun t ht => plain t (List.mem_cons_of_mem s ht)
    have tail : path = s ++ more.flatMap ('/' :: ·) := by simpa using hpath
    rw [pathFrom, slashed, tail, splitOn_segments hs hm, walk_text [] hs hm]
    rfl

end StoryPreview.Url
