import StoryPreview.Proofs.Reactive.Scheduling
/-!
To which run a read is credited. What the account says that the latest run of an effect has read are
the cells that were read during that run while no other run, and no block without tracking, was
under way inside it.
-/
namespace StoryPreview.Reactive
variable {V : Type} {log news before after run : List (Mark V)} {mark start : Mark V} {c : CellId}
    {e : EffectId}
variable {outer : List (Option EffectId)}

namespace Layer

def reading (e : EffectId) : List (Layer V) → Option (List CellId)
  | .run d reads :: layers => if d = e then some reads else reading e layers
  | _ :: layers => reading e layers
  | [] => none

theorem reading_credit (c : CellId) (layers : List (Layer V)) : reading e (credit c layers) =
    if (layers.filterMap block?).head? = some (some e) then
      (reading e layers).map fun reads => if c ∈ reads then reads else reads ++ [c]
    else reading e layers := by
  induction layers with
  | nil => simp [credit, reading]
  | cons layer layers ih =>
    cases layer with
    | run d reads => by_cases hd : d = e <;> simp [credit, block?, reading, hd]
    | untracked => simp [credit, block?, reading]
    | round r => exact ih
    | call l => exact ih

theorem reading_stir (layers : List (Layer V)) :
    reading e (layers.map stir) = reading e layers := by
  induction layers with
  | nil => rfl
  | cons layer layers ih => cases layer <;> simp [stir, reading, ih]

theorem mem_running_of_reading {layers : List (Layer V)} {reads : List CellId}
    (h : reading e layers = some reads) : e ∈ layers.filterMap running? := by
  induction layers with
  | nil => cases h
  | cons layer layers ih =>
    cases layer with
    | run d ds =>
      by_cases hd : d = e
      · exact List.mem_filterMap.2 ⟨.run d ds, List.mem_cons_self, congrArg some hd⟩
      · rw [reading, if_neg hd] at h
        exact List.mem_cons_of_mem _ (ih h)
    | untracked => exact ih h
    | round r => exact ih h
    | call l => exact ih h

end Layer

def Mark.Starts (e : EffectId) (mark : Mark V) : Prop := mark = .spawned e ∨ mark = .reran e

def blocks (log : List (Mark V)) : List (Option EffectId) := log.foldl nest []

theorem blocks_concat (log : List (Mark V)) (mark : Mark V) :
    blocks (log ++ [mark]) = nest (blocks log) mark := by
  rw [blocks, List.foldl_append]
  rfl

/-- A piece of a log reads a cell, and the read is credited to an effect whose run is the innermost
block. -/
def Credited (log news : List (Mark V)) (e : EffectId) (c : CellId) : Prop :=
  ∃ first rest, news = first ++ .read c :: rest ∧ (blocks (log ++ first)).head? = some (some e)

/-- Reads of a cell have been credited to the latest run of an effect that has come to an end. -/
def Tracked (log : List (Mark V)) (e : EffectId) (c : CellId) : Prop :=
  ∃ before start run after, log = before ++ [start] ++ run ++ [.ended e] ++ after ∧ start.Starts e ∧
    .ended e ∉ run ∧ .ended e ∉ after ∧ Credited (before ++ [start]) run e c

def Account.readingAfter (a : Account V) (e : EffectId) : Mark V → Option (List CellId)
  | .read c => Layer.reading e (Layer.credit c a.layers)
  | _ => Layer.reading e a.layers

theorem Lawful.reading (h : Lawful log mark) (same : ¬ mark.Starts e) (unended : mark ≠ .ended e) :
    Layer.reading e (account (log ++ [mark])).layers = (account log).readingAfter e mark := by
  rw [account_concat]
  cases h with
  | read => rfl
  | changed => exact Layer.reading_stir _
  | settled top => simp only [Account.after, Account.readingAfter, top, List.tail_cons,
    Layer.reading]
  | called top => simp only [Account.after, Account.readingAfter, top, Layer.callNext,
    Layer.reading]
  | returned top => simp only [Account.after, Account.readingAfter, top, List.tail_cons,
    Layer.reading]
  | resumed top => simp only [Account.after, Account.readingAfter, top, List.tail_cons,
    Layer.reading]
  | spawned => exact if_neg fun hd => same (.inl (congrArg Mark.spawned hd))
  | reran top =>
    simp only [Account.after, Account.readingAfter, top, Layer.rerun, Layer.reading]
    exact if_neg fun hd => same (.inr (congrArg Mark.reran hd))
  | ended top =>
    simp only [Account.after, Account.readingAfter, top, Layer.reading]
    exact (if_neg fun hd => unended (congrArg Mark.ended hd)).symm
  | disposed d | dropped d =>
    simp only [Account.after]
    split <;> rfl
  | _ => rfl

theorem not_credited_nil : ¬ Credited log [] e c := by
  rintro ⟨first, rest, whole, -⟩
  simp at whole

theorem credited_concat : Credited log (news ++ [mark]) e c ↔
    Credited log news e c ∨ mark = .read c ∧ (blocks (log ++ news)).head? = some (some e) := by
  constructor
  · rintro ⟨first, rest, whole, inner⟩
    rcases List.eq_nil_or_concat rest with rfl | ⟨rest, d, rfl⟩
    · obtain ⟨rfl, heq⟩ := List.append_inj' whole rfl
      exact .inr ⟨List.singleton_inj.1 heq, inner⟩
    · rw [List.concat_eq_append, ← List.cons_append, ← List.append_assoc] at whole
      exact .inl ⟨first, rest, (List.append_inj' whole rfl).1, inner⟩
  · rintro (⟨first, rest, rfl, inner⟩ | ⟨rfl, inner⟩)
    · exact ⟨first, rest ++ [mark], by simp, inner⟩
    · exact ⟨news, [], rfl, inner⟩

/-- What a run ends with becomes the latest, until the effect ends a run again. -/
theorem latest_append (log : List (Mark V)) (quiet : .ended e ∉ news) :
    (account (log ++ news)).latest e = (account log).latest e := by
  induction news using List.reverseRecOn with
  | nil => rw [List.append_nil]
  | append_singleton news mark ih =>
    rw [← List.append_assoc, account_concat, ← ih fun he => quiet (List.mem_append_left _ he)]
    cases mark with
    | ended d =>
      have other : e ≠ d := fun heq => quiet (by simp [heq])
      rw [Account.after]
      split
      · exact if_neg other
      · rfl
    | disposed d | dropped d =>
      rw [Account.after]
      split <;> rfl
    | _ => rfl

/-! ### Blocks within blocks -/

/-- A piece of a log ends no block that was under way before it. -/
def Enclosed (log news : List (Mark V)) : Prop :=
  ∀ first rest, news = first ++ rest → (blocks log).length ≤ (blocks (log ++ first)).length

def closing : Option EffectId → Mark V
  | some e => .ended e
  | none => .resumed

def Mark.Opens (mark : Mark V) : Option EffectId → Prop
  | some e => mark.Starts e
  | none => mark = .suspended

theorem Enclosed.of_append (h : Enclosed log (news ++ after)) : Enclosed log news :=
  fun first rest whole => h first (rest ++ after) (by rw [whole, List.append_assoc])

theorem suffix_nest_or_tail (blocks : List (Option EffectId)) (mark : Mark V) :
    blocks <:+ nest blocks mark ∨ nest blocks mark = blocks.tail := by
  cases mark with
  | spawned | reran | suspended => exact .inl (List.suffix_cons _ _)
  | ended | resumed => exact .inr rfl
  | _ => exact .inl (List.suffix_refl _)

theorem Enclosed.suffix (h : Enclosed log news) : blocks log <:+ blocks (log ++ news) := by
  induction news using List.reverseRecOn with
  | nil => exact (List.append_nil log).symm ▸ List.suffix_refl _
  | append_singleton news mark ih =>
    have stays := h _ [] (List.append_nil _).symm
    replace ih := ih h.of_append
    rw [← List.append_assoc, blocks_concat] at stays ⊢
    rcases suffix_nest_or_tail (blocks (log ++ news)) mark with grown | popped
    · exact ih.trans grown
    · rw [popped] at stays ⊢
      cases all : blocks (log ++ news) with
      | nil =>
        rw [all] at ih
        exact ih
      | cons b tail =>
        rw [all] at ih stays
        refine (List.suffix_cons_iff.1 ih).resolve_left fun whole => ?_
        rw [whole] at stays
        exact Nat.not_succ_le_self _ stays

/-- A block stays open, or a mark ends it and leaves the blocks around it. -/
theorem enclosed_or_closed {b : Option EffectId} {outer : List (Option EffectId)}
    (top : blocks log = b :: outer) (news : List (Mark V)) :
    Enclosed log news ∨ ∃ inside mark after, news = inside ++ mark :: after ∧ Enclosed log inside ∧
      blocks (log ++ inside) = b :: outer ∧ blocks (log ++ inside ++ [mark]) = outer := by
  induction news using List.reverseRecOn with
  | nil =>
    refine .inl fun first rest whole => Nat.le_of_eq ?_
    rw [(List.append_eq_nil_iff.1 whole.symm).1, List.append_nil]
  | append_singleton news mark ih =>
    rcases ih with enclosed | ⟨inside, close, after, rfl, closed⟩
    · by_cases stays : (blocks log).length ≤ (blocks (log ++ (news ++ [mark]))).length
      · refine .inl fun first rest whole => ?_
        rcases List.eq_nil_or_concat rest with rfl | ⟨rest, d, rfl⟩
        · rw [List.append_nil] at whole
          exact whole ▸ stays
        · rw [List.concat_eq_append, ← List.append_assoc] at whole
          exact enclosed first rest (List.append_inj' whole rfl).1
      · have suffix := enclosed.suffix
        rw [← List.append_assoc, blocks_concat] at stays
        rcases suffix_nest_or_tail (blocks (log ++ news)) mark with grown | popped
        · exact absurd (suffix.trans grown).length_le stays
        · rw [popped, List.length_tail] at stays
          have all := suffix.eq_of_length_le (by omega)
          refine .inr ⟨news, mark, [], rfl, enclosed, all ▸ top, ?_⟩
          rw [blocks_concat, popped, ← all, top, List.tail_cons]
    · exact .inr ⟨inside, close, after ++ [mark], by simp, closed⟩

namespace Proper

theorem blocks_eq (h : Proper log) : (account log).blocks = blocks log := by
  induction h with
  | nil => rfl
  | concat h lawful ih =>
    rw [lawful.blocks, ih, blocks_concat]

theorem running_nodup (h : Proper log) : (account log).running.Nodup := by
  induction h with
  | nil => exact List.nodup_nil
  | @concat log mark proper lawful ih =>
    rw [lawful.running]
    cases lawful with
    | spawned => exact List.nodup_cons.2 ⟨fun he => Nat.lt_irrefl _ (proper.known _ (.inl he)), ih⟩
    | reran _ _ _ _ _ _ rests => exact List.nodup_cons.2 ⟨rests, ih⟩
    | ended => exact ih.sublist (List.tail_sublist _)
    | _ => exact ih

/-- A run that is under way has begun, and has not ended since. -/
theorem started (h : Proper log) (runs : e ∈ (account log).running) :
    ∃ before start run, log = before ++ [start] ++ run ∧ start.Starts e ∧ .ended e ∉ run := by
  induction h with
  | nil => cases runs
  | @concat log mark proper lawful ih =>
    rw [lawful.running] at runs
    have goesOn (runs : e ∈ (account log).running) (unended : mark ≠ .ended e) :
        ∃ before start run, log ++ [mark] = before ++ [start] ++ run ∧ start.Starts e ∧
        .ended e ∉ run := by
      obtain ⟨before, start, run, rfl, starts, quiet⟩ := ih runs
      exact ⟨before, start, run ++ [mark], List.append_assoc .., starts,
        by simp [quiet, unended.symm]⟩
    have begins (starts : mark.Starts e) :
        ∃ before start run, log ++ [mark] = before ++ [start] ++ run ∧ start.Starts e ∧
        .ended e ∉ run :=
      ⟨log, mark, [], (List.append_nil _).symm, starts, List.not_mem_nil⟩
    cases lawful with
    | spawned =>
      rcases List.mem_cons.1 runs with rfl | runs
      · exact begins (.inl rfl)
      · exact goesOn runs (by simp)
    | reran =>
      rcases List.mem_cons.1 runs with rfl | runs
      · exact begins (.inr rfl)
      · exact goesOn runs (by simp)
    | @ended d reads layers top =>
      have all : (account log).running = d :: layers.filterMap Layer.running? := by
        rw [Account.running, top]
        rfl
      have nodup := all ▸ proper.running_nodup
      rw [Account.runningAfter, all, List.tail_cons] at runs
      refine goesOn (all ▸ List.mem_cons_of_mem _ runs) fun heq => ?_
      exact (List.nodup_cons.1 nodup).1 (Mark.ended.inj heq ▸ runs)
    | _ => exact goesOn runs (by simp)

/-- A run under way has read the cells whose reads have been credited to it. -/
theorem reading (h : Proper (before ++ [start] ++ run)) (starts : start.Starts e)
    (unended : .ended e ∉ run) :
    ∃ reads, Layer.reading e (account (before ++ [start] ++ run)).layers = some reads ∧
      ∀ c, c ∈ reads ↔ Credited (before ++ [start]) run e c := by
  induction run using List.reverseRecOn with
  | nil =>
    rw [List.append_nil] at h ⊢
    refine ⟨[], ?_, fun c => iff_of_false List.not_mem_nil not_credited_nil⟩
    rw [account_concat]
    rcases starts with rfl | rfl
    · exact if_pos rfl
    · cases h.last.2 with
      | reran top =>
        rw [Account.after, top]
        exact if_pos rfl
  | append_singleton run mark ih =>
    rw [← List.append_assoc] at h ⊢
    obtain ⟨proper, lawful⟩ := h.last
    obtain ⟨reads, under, members⟩ := ih proper fun he => unended (List.mem_append_left _ he)
    have runs := Layer.mem_running_of_reading under
    have same : ¬ mark.Starts e := by
      rintro (rfl | rfl)
      · exact h.scheduled.alone (.inl rfl) runs
      · exact h.scheduled.alone (.inr rfl) runs
    rw [lawful.reading same fun heq => unended (by simp [heq])]
    simp only [credited_concat, ← members]
    cases mark with
    | read d =>
      rw [Account.readingAfter, Layer.reading_credit, under, ← Account.blocks, proper.blocks_eq]
      generalize (blocks (before ++ [start] ++ run)).head? = inner
      by_cases credited : inner = some (some e)
      · refine ⟨_, if_pos credited, fun c => ?_⟩
        by_cases old : d ∈ reads
        · simp only [if_pos old]
          exact (or_iff_left_of_imp fun hc => Mark.read.inj hc.1 ▸ old).symm
        · simp [old, credited, eq_comm]
      · exact ⟨reads, if_neg credited, fun c => (or_iff_left fun hc => credited hc.2).symm⟩
    | _ => exact ⟨reads, under, fun c => by simp⟩

/-- What the latest run of an effect has read are the cells whose reads have been credited to it. -/
theorem mem_latest_of_run (h : Proper (before ++ [start] ++ run ++ [.ended e] ++ after))
    (starts : start.Starts e) (unended : .ended e ∉ run) (quiet : .ended e ∉ after) :
    c ∈ (account (before ++ [start] ++ run ++ [.ended e] ++ after)).latest e ↔
    Credited (before ++ [start]) run e c := by
  obtain ⟨proper, lawful⟩ := h.of_append.last
  obtain ⟨reads, under, members⟩ := proper.reading starts unended
  rw [← members, latest_append _ quiet, account_concat]
  cases lawful with
  | ended top =>
    rw [top, Layer.reading, if_pos rfl] at under
    obtain rfl := Option.some.inj under
    simp only [Account.after, top, if_true]

/-- The cells that the latest run of an effect has read. -/
theorem mem_latest_iff (h : Proper log) : c ∈ (account log).latest e ↔ Tracked log e c := by
  constructor
  · intro hc
    have ended : .ended e ∈ log := by
      refine Classical.byContradiction fun never => ?_
      have none : (account log).latest e = [] := latest_append [] never
      rw [none] at hc
      cases hc
    -- the last end of a run is the first in the log that is read backwards
    obtain ⟨after, first, whole, quiet⟩ := List.eq_append_cons_of_mem (List.mem_reverse.2 ended)
    obtain rfl : log = first.reverse ++ [.ended e] ++ after.reverse := by
      rw [← List.reverse_reverse log, whole]
      simp
    replace quiet : .ended e ∉ after.reverse := fun he => quiet (List.mem_reverse.1 he)
    obtain ⟨proper, lawful⟩ := h.of_append.last
    have runs : e ∈ (account first.reverse).running := by
      cases lawful with
      | ended top => exact List.mem_filterMap.2 ⟨_, top ▸ List.mem_cons_self, rfl⟩
    obtain ⟨before, start, run, heq, starts, unended⟩ := proper.started runs
    rw [heq] at h hc ⊢
    exact ⟨before, start, run, _, rfl, starts, unended, quiet,
      (h.mem_latest_of_run starts unended quiet).1 hc⟩
  · rintro ⟨before, start, run, after, rfl, starts, unended, quiet, credited⟩
    exact (h.mem_latest_of_run starts unended quiet).2 credited

/-! ### Reads within inner blocks -/

theorem blocks_nodup (h : Proper log) : ((Reactive.blocks log).filterMap id).Nodup := by
  rw [← h.blocks_eq, ← Account.running_eq]
  exact h.running_nodup

/-- What is read within an inner block is not credited to what is running around it. -/
theorem not_credited {b : Option EffectId} (h : Proper (log ++ news))
    (top : Reactive.blocks log = b :: outer) (enclosed : Enclosed log news)
    (around : some e ∈ outer) : ¬ Credited log news e c := by
  rintro ⟨first, rest, rfl, inner⟩
  have suffix := enclosed.of_append.suffix
  rw [← List.append_assoc] at h
  have nodup := h.of_append.blocks_nodup
  cases all : Reactive.blocks (log ++ first) with
  | nil => simp [all] at inner
  | cons d tail =>
    rw [all] at suffix inner nodup
    obtain rfl := Option.some.inj inner
    have deeper : outer <:+ tail := by
      rw [top] at suffix
      rcases List.suffix_cons_iff.1 suffix with whole | suffix
      · exact (List.cons.inj whole).2 ▸ List.suffix_refl _
      · exact (List.suffix_cons _ _).trans suffix
    exact (List.nodup_cons.1 nodup).1 (List.mem_filterMap.2 ⟨some e, deeper.subset around, rfl⟩)

theorem eq_closing {b : Option EffectId} (h : Proper (log ++ [mark]))
    (top : Reactive.blocks log = b :: outer) (closed : Reactive.blocks (log ++ [mark]) = outer) :
    mark = closing b := by
  obtain ⟨proper, lawful⟩ := h.last
  rw [blocks_concat, top] at closed
  have under := proper.blocks_eq.trans top
  have shorter : (b :: outer).length ≠ outer.length := Nat.succ_ne_self _
  have longer (d : Option EffectId) : (d :: b :: outer).length ≠ outer.length :=
    Nat.ne_of_gt (Nat.lt_succ_of_lt (Nat.lt_succ_self _))
  cases lawful with
  | ended inner =>
    rw [Account.blocks, inner] at under
    exact congrArg closing (List.cons.inj under).1
  | resumed inner =>
    rw [Account.blocks, inner] at under
    exact congrArg closing (List.cons.inj under).1
  | spawned | reran | suspended => exact absurd (congrArg List.length closed) (longer _)
  | _ => exact absurd (congrArg List.length closed) shorter

end Proper

/-- Every block ends, what is read within it is not credited to what is running around it, and then
things are as before. -/
def Nested (log : List (Mark V)) : Prop :=
  ∀ before rest mark b, log = before ++ [mark] ++ rest → mark.Opens b →
    ∃ inside after, rest = inside ++ closing b :: after ∧
    (∀ e c, some e ∈ blocks before → ¬ Credited (before ++ [mark]) inside e c) ∧
    blocks (before ++ [mark] ++ inside ++ [closing b]) = blocks before

theorem Proper.nested (h : Proper log) (done : Reactive.blocks log = []) : Nested log := by
  rintro before rest mark b rfl opens
  have top : Reactive.blocks (before ++ [mark]) = b :: Reactive.blocks before := by
    rw [blocks_concat]
    cases b with
    | none => exact opens ▸ rfl
    | some e => rcases opens with rfl | rfl <;> rfl
  rcases enclosed_or_closed top rest with enclosed | ⟨inside, close, after, rfl, enclosed, under,
    closed⟩
  · have short := enclosed.suffix.length_le
    rw [done, top] at short
    exact absurd short (Nat.not_succ_le_zero _)
  · have proper : Proper (before ++ [mark] ++ inside ++ [close]) := by
      rw [List.append_cons inside, ← List.append_assoc, ← List.append_assoc] at h
      exact h.of_append
    obtain rfl := proper.eq_closing under closed
    exact ⟨inside, after, rfl, fun e c around => proper.of_append.not_credited top enclosed around,
      closed⟩

end StoryPreview.Reactive
