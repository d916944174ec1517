import StoryPreview.Proofs.Url.Origin
/-!
Paths that URLs keep. Reading a URL of the web escapes what a path may not hold, and resolves the
segments that are written with dots alone. A path is kept as it stands exactly if there is nothing
to escape and nothing to resolve in it; else another path comes out.
-/
namespace StoryPreview.Url

/-! ### Segments of dots -/

def dots : List (List Char) := [".".toList, "%2e".toList, "%2E".toList]

def dotSegments : List (List Char) := dots ++ dots.flatMap fun dot => dots.map (dot ++ ·)

theorem lowerDots_eq_nil {s : List Char} : isDot.lowerDots s = [] ↔ s = [] := by
  constructor
  · intro h
    unfold isDot.lowerDots at h
    split at h
    · split at h <;> cases h
    · cases h
    · exact h
  · rintro rfl
    rfl

/-- A text whose dots are read starts with a dot exactly if it starts with a spelling of one. -/
theorem lowerDots_eq_cons {s ds : List Char} :
    isDot.lowerDots s = '.' :: ds ↔ ∃ dot ∈ dots, ∃ rest, s = dot ++ rest ∧
    isDot.lowerDots rest = ds := by
  simp only [dots, List.mem_cons, List.not_mem_nil, or_false, exists_eq_or_imp, exists_eq_left]
  constructor
  · intro h
    unfold isDot.lowerDots at h
    split at h
    · rename_i e cs
      split at h
      · rename_i he
        rw [Bool.or_eq_true, beq_iff_eq, beq_iff_eq] at he
        rcases he with rfl | rfl
        · exact .inr (.inl ⟨cs, rfl, (List.cons.inj h).2⟩)
        · exact .inr (.inr ⟨cs, rfl, (List.cons.inj h).2⟩)
      · exact absurd (List.cons.inj h).1 (by decide)
    · rename_i cs
      exact .inl ⟨cs, rfl, (List.cons.inj h).2⟩
    · rename_i noDot
      exact absurd h (noDot ds)
  · rintro (⟨rest, rfl, rfl⟩ | ⟨rest, rfl, rfl⟩ | ⟨rest, rfl, rfl⟩) <;> rfl

theorem isDot_iff {s : List Char} : isDot s = true ↔ s ∈ dots := by
  rw [isDot, beq_iff_eq, lowerDots_eq_cons]
  constructor
  · rintro ⟨dot, hd, rest, rfl, none⟩
    rwa [lowerDots_eq_nil.1 none, List.append_nil]
  · exact fun hs => ⟨s, hs, [], (List.append_nil s).symm, rfl⟩

theorem isDotDot_iff {s : List Char} : isDotDot s = true ↔ s ∈ dots.flatMap fun dot =>
    dots.map (dot ++ ·) := by
  rw [isDotDot, beq_iff_eq, lowerDots_eq_cons]
  simp only [List.mem_flatMap, List.mem_map]
  refine exists_congr fun dot => and_congr_right fun _ => ?_
  constructor
  · rintro ⟨rest, rfl, second⟩
    exact ⟨rest, isDot_iff.1 (by rw [isDot, second]; rfl), rfl⟩
  · rintro ⟨dot', hd', rfl⟩
    exact ⟨dot', rfl, by simpa [isDot] using isDot_iff.2 hd'⟩

theorem mem_dotSegments {s : List Char} : s ∈ dotSegments ↔ isDotDot s = true ∨ isDot s = true := by
  rw [isDotDot_iff, isDot_iff, or_comm]
  exact List.mem_append

theorem ne_nil_of_dotSegment {s : List Char} (h : s ∈ dotSegments) : s ≠ [] := by
  rintro rfl
  exact absurd h (by decide)

/-! ### Walks -/

def laid (done : List (List Char)) : List Char := done.reverse.flatMap fun s => s ++ ['/']

def standing (done segments : List (List Char)) : List Char :=
  '/' :: (laid done ++ ['/'].intercalate segments)

theorem laid_cons (s : List Char) (done : List (List Char)) :
    laid (s :: done) = laid done ++ (s ++ ['/']) := by
  simp [laid]

theorem length_laid_shorten (done : List (List Char)) :
    (laid (Trail.shorten done)).length ≤ (laid done).length := by
  unfold Trail.shorten
  split
  · exact Nat.le_refl _
  · split
    · exact Nat.le_refl _
    · rw [laid_cons, List.length_append]
      exact Nat.le_add_right ..

theorem standing_cons (done : List (List Char)) (s : List Char) {more : List (List Char)}
    (hm : more ≠ []) : standing done (s :: more) = standing (s :: done) more := by
  obtain ⟨t, more, rfl⟩ := List.exists_cons_of_ne_nil hm
  simp [standing, laid_cons, List.intercalate_cons_cons]

theorem text_web (t : Trail) : t.text .web = '/' :: (laid t.done ++ t.last) := rfl

def steppedOver (done : List (List Char)) (s : List Char) : List (List Char) :=
  if isDotDot s then Trail.shorten done else if isDot s then done else escapeSegment s :: done

theorem walk_cons (done : List (List Char)) (s : List Char) {more : List (List Char)}
    (hm : more ≠ []) :
    Trail.walk .web done (s :: more) = Trail.walk .web (steppedOver done s) more := by
  rw [Trail.walk, steppedOver]
  · split
    · rfl
    · split <;> rfl
  · exact hm

theorem steppedOver_of_notMem {done : List (List Char)} {s : List Char} (h : s ∉ dotSegments) :
    steppedOver done s = escapeSegment s :: done := by
  rw [mem_dotSegments, not_or] at h
  rw [steppedOver, if_neg h.1, if_neg h.2]

theorem length_laid_steppedOver {s : List Char} (h : s ∈ dotSegments) (done : List (List Char)) :
    (laid (steppedOver done s)).length ≤ (laid done).length := by
  unfold steppedOver
  split
  · exact length_laid_shorten done
  · rename_i notUp
    rw [if_pos ((mem_dotSegments.1 h).resolve_left notUp)]

theorem walk_last (done : List (List Char)) (s : List Char) : (Trail.walk .web done [s]).text .web =
    '/' :: if s ∈ dotSegments then laid (steppedOver done s) else laid done ++ escapeSegment s := by
  rw [Trail.walk, text_web]
  by_cases up : isDotDot s = true
  · rw [if_pos up, if_pos (mem_dotSegments.2 (.inl up)), steppedOver, if_pos up, List.append_nil]
  · by_cases dot : isDot s = true
    · rw [if_neg up, if_pos dot, if_pos (mem_dotSegments.2 (.inr dot)), steppedOver, if_neg up,
        if_pos dot, List.append_nil]
    · rw [if_neg up, if_neg dot, if_neg fun h => (mem_dotSegments.1 h).elim up dot]
      rfl

/-- A walk along segments with nothing to escape keeps their path, or one of them is of dots and the
path gets shorter. -/
theorem walk_stands_or_shrinks (done : List (List Char)) {segments : List (List Char)}
    (hne : segments ≠ []) (hs : ∀ s ∈ segments, escapeSegment s = s) :
    (∀ s ∈ segments, s ∉ dotSegments) ∧ (Trail.walk .web done segments).text .web =
      standing done segments ∨
    (∃ s ∈ segments, s ∈ dotSegments) ∧
      ((Trail.walk .web done segments).text .web).length < (standing done segments).length := by
  induction segments generalizing done with
  | nil => exact absurd rfl hne
  | cons s more ih =>
    have here := hs s List.mem_cons_self
    by_cases last : more = []
    · subst last
      by_cases hdot : s ∈ dotSegments
      · have shorter := length_laid_steppedOver hdot done
        have visible := List.length_pos_iff.2 (ne_nil_of_dotSegment hdot)
        refine .inr ⟨⟨s, List.mem_cons_self, hdot⟩, ?_⟩
        rw [walk_last, if_pos hdot, standing, List.intercalate_singleton]
        simp only [List.length_cons, List.length_append]
        omega
      · refine .inl ⟨List.forall_mem_singleton.2 hdot, ?_⟩
        rw [walk_last, if_neg hdot, here, standing, List.intercalate_singleton]
    · have there := ih (steppedOver done s) last fun t ht => hs t (List.mem_cons_of_mem s ht)
      rw [walk_cons done s last]
      by_cases hdot : s ∈ dotSegments
      · -- The dots and a slash are gone, and what follows adds nothing.
        have shorter := length_laid_steppedOver hdot done
        have rest : ((Trail.walk .web (steppedOver done s) more).text .web).length ≤
            (standing (steppedOver done s) more).length :=
              there.elim (fun h => h.2 ▸ Nat.le_refl _) fun h => h.2.le
        refine .inr ⟨⟨s, List.mem_cons_self, hdot⟩, Nat.lt_of_le_of_lt rest ?_⟩
        rw [standing_cons done s last]
        simp only [standing, laid_cons, List.length_cons, List.length_append, List.length_nil]
        omega
      · rw [steppedOver_of_notMem hdot, here] at there ⊢
        rw [standing_cons done s last]
        refine there.imp (fun h => ⟨List.forall_mem_cons.2 ⟨hdot, h.1⟩, h.2⟩) fun h => ⟨?_, h.2⟩
        obtain ⟨t, ht, dots⟩ := h.1
        exact ⟨t, List.mem_cons_of_mem s ht, dots⟩

/-! ### Characters -/

def isKeptChar (c : Char) : Bool := isPathChar c && c != '\\'

theorem isKeptChar_of_mem_escape {s : List Char} (hs : '\\' ∉ s) {c : Char}
    (hc : c ∈ escapeSegment s) : isKeptChar c = true := by
  have plain {d : Char} (hd : isPlainChar d = true) : isKeptChar d = true := by
    have ne : d ≠ '\\' := by
      rintro rfl
      exact absurd hd (by decide)
    simp [isKeptChar, isPathChar_of_plain hd, ne]
  rcases Percent.mem_encode hc with ⟨keep, hm⟩ | rfl | alphanumeric
  · have ne : c ≠ '\\' := fun he => hs (he ▸ hm)
    simp [isKeptChar, keep, ne]
  · decide
  · exact plain (by simp [isPlainChar, alphanumeric])

theorem kept_of_mem_laid {done : List (List Char)} (h : ∀ s ∈ done, ∀ c ∈ s, isKeptChar c = true)
    {c : Char} (hc : c ∈ laid done) : isKeptChar c = true := by
  obtain ⟨s, hs, hc⟩ := List.mem_flatMap.1 hc
  rcases List.mem_append.1 hc with hc | hc
  · exact h s (List.mem_reverse.1 hs) c hc
  · obtain rfl := List.mem_singleton.1 hc
    decide

theorem mem_steppedOver {done : List (List Char)} {s t : List Char} (h : t ∈ steppedOver done s) :
    t = escapeSegment s ∨ t ∈ done := by
  have shorten : t ∈ Trail.shorten done → t ∈ done := by
    unfold Trail.shorten
    split
    · exact id
    · split
      · exact id
      · exact List.mem_cons_of_mem _
  unfold steppedOver at h
  split at h
  · exact .inr (shorten h)
  · split at h
    · exact .inr h
    · exact List.mem_cons.1 h

/-- Along segments without backslashes a walk writes kept characters only. -/
theorem kept_of_mem_walk {done segments : List (List Char)} (hne : segments ≠ [])
    (hd : ∀ s ∈ done, ∀ c ∈ s, isKeptChar c = true) (hs : ∀ s ∈ segments, '\\' ∉ s) {c : Char}
    (hc : c ∈ (Trail.walk .web done segments).text .web) : isKeptChar c = true := by
  induction segments generalizing done with
  | nil => exact absurd rfl hne
  | cons s more ih =>
    have here := hs s List.mem_cons_self
    have next : ∀ t ∈ steppedOver done s, ∀ c ∈ t, isKeptChar c = true := fun t ht c hc => by
      rcases mem_steppedOver ht with rfl | ht
      · exact isKeptChar_of_mem_escape here hc
      · exact hd t ht c hc
    by_cases last : more = []
    · subst last
      rw [walk_last, List.mem_cons] at hc
      rcases hc with rfl | hc
      · decide
      · split at hc
        · exact kept_of_mem_laid next hc
        · exact (List.mem_append.1 hc).elim (kept_of_mem_laid hd) (isKeptChar_of_mem_escape here)
    · rw [walk_cons done s last] at hc
      exact ih last next (fun t ht => hs t (List.mem_cons_of_mem s ht)) hc

/-! ### Paths -/

def slashed (cs : List Char) : List Char :=
  cs.map fun c => if SchemeKind.isSlash .web c then '/' else c

theorem backslash_notMem_slashed (cs : List Char) : '\\' ∉ slashed cs := by
  intro hm
  obtain ⟨c, -, hc⟩ := List.mem_map.1 hm
  split at hc
  · exact absurd hc (by decide)
  · rename_i slash
    rw [hc] at slash
    exact slash (by decide)

theorem pathFrom_web (cs : List Char) :
    pathFrom .web [] cs = (Trail.walk .web [] (Text.splitOn '/' (slashed cs))).text .web := rfl

theorem kept_of_mem_pathFrom {cs : List Char} {c : Char} (hc : c ∈ pathFrom .web [] cs) :
    isKeptChar c = true := by
  refine kept_of_mem_walk (Text.splitOn_ne_nil '/' (slashed cs)) (by simp) (fun s hs hm => ?_) hc
  exact backslash_notMem_slashed cs (Text.mem_of_mem_splitOn hs hm)

theorem slashed_of_kept {cs : List Char} (h : ∀ c ∈ cs, isKeptChar c = true) : slashed cs = cs := by
  refine (List.map_congr_left (g := id) fun c hc => ?_).trans (List.map_id cs)
  have kept := h c hc
  simp only [isKeptChar, Bool.and_eq_true, bne_iff_ne] at kept
  by_cases slash : c = '/'
  · rw [slash]
    rfl
  · simp [SchemeKind.isSlash, slash, kept.2]

/-- Along a text of kept characters a path is the text, or there is a segment of dots and the path
is shorter. -/
theorem pathFrom_stands_or_shrinks {cs : List Char} (h : ∀ c ∈ cs, isKeptChar c = true) :
    (∀ s ∈ Text.splitOn '/' cs, s ∉ dotSegments) ∧ pathFrom .web [] cs = '/' :: cs ∨
    (∃ s ∈ Text.splitOn '/' cs, s ∈ dotSegments) ∧
    (pathFrom .web [] cs).length < ('/' :: cs).length := by
  have asIs : ∀ s ∈ Text.splitOn '/' cs, escapeSegment s = s :=
    fun s hs => Percent.encode_eq_self fun c hc => by
    have kept := h c (Text.mem_of_mem_splitOn hs hc)
    exact (Bool.and_eq_true_iff.1 kept).1
  have walked := walk_stands_or_shrinks [] (Text.splitOn_ne_nil '/' cs) asIs
  rw [pathFrom_web, slashed_of_kept h]
  rwa [standing, Text.intercalate_splitOn] at walked

/-- A path that a web URL keeps as it stands: it starts with one slash, it has kept characters only,
and no segment is of dots. -/
structure KeptPath (path : List Char) : Prop where
  slash : path.head? = some '/'
  single : path.tail.head? ≠ some '/'
  kept : ∀ c ∈ path, isKeptChar c = true
  named : ∀ s ∈ Text.splitOn '/' path, s ∉ dotSegments

theorem keptPath_iff {path : List Char} : KeptPath path ↔
    path.head? = some '/' ∧ path.tail.head? ≠ some '/' ∧ path.all isKeptChar = true ∧
      (Text.splitOn '/' path).all (fun s => !(isDotDot s || isDot s)) = true := by
  have named (s : List Char) : s ∉ dotSegments ↔ (!(isDotDot s || isDot s)) = true := by
    rw [mem_dotSegments, ← Bool.or_eq_true, Bool.not_eq_true, Bool.not_eq_true']
  simp only [List.all_eq_true, ← named]
  exact ⟨fun h => ⟨h.slash, h.single, h.kept, h.named⟩, fun h => ⟨h.1, h.2.1, h.2.2.1, h.2.2.2⟩⟩

instance (path : List Char) : Decidable (KeptPath path) := decidable_of_iff _ keptPath_iff.symm

example : KeptPath "/box/Button/Primary".toList ∧ ¬KeptPath "/box/My Button".toList ∧
    ¬KeptPath "/box/%2e./Button".toList := by
  decide +kernel

end StoryPreview.Url
