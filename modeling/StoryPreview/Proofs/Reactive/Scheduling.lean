import StoryPreview.Proofs.Reactive.ProperRuns
/-!
When effects run. An effect never runs within itself; it runs again only when it is called for a
change of a cell that its latest run has read, at most once for each change, and exactly once if
nothing else changes; once it has been given up it does not run again.
-/
namespace StoryPreview.Reactive
variable {B V W : Type} {keeps : W → ListenerId → Prop} {m : Meaning B V W}
variable {log news before after : List (Mark V)} {mark : Mark V} {e : EffectId}

def Mark.rerun? : Mark V → Option EffectId
  | .reran e => some e
  | _ => none

def reruns (log : List (Mark V)) : List EffectId := log.filterMap Mark.rerun?

def Mark.Retires (e : EffectId) (mark : Mark V) : Prop := mark = .disposed e ∨ mark = .dropped e

structure Scheduled (log : List (Mark V)) : Prop where
  /-- No effect starts to run while it is running. -/
  alone : ∀ {before after : List (Mark V)} {e : EffectId},
    log = before ++ .spawned e :: after ∨ log = before ++ .reran e :: after →
    e ∉ (account before).running
  /-- An effect runs again only when the announcement of a change of a cell that its latest run has
  read calls it. -/
  caused : ∀ {before after : List (Mark V)} {e : EffectId}, log = before ++ .reran e :: after →
    ∃ l r layers, (account before).layers = .call l :: .round r :: layers ∧
      .changed r.cell r.value r.captured ∈ before ∧ r.cell ∈ (account before).latest e
  /-- No announcement makes an effect run twice. -/
  once : ∀ {before after : List (Mark V)}, log = before ++ after → ∀ r ∈ (account before).rounds,
    r.ran.Nodup
  /-- If nothing else changes, the effects that depend on a cell run once each, and no others,
  unless they are given up. -/
  complete : ∀ {before during after : List
    (Mark V)} {c : CellId} {v : V} {captured : List ListenerId},
    log = before ++ .changed c v captured :: (during ++ .settled c :: after) →
    (∀ d w ls, .changed d w ls ∉ during) → (∀ d, .settled d ∉ during) →
      (reruns during).Nodup ∧ (∀ e ∈ reruns during, e ∈ (account before).dependents c) ∧
        ∀ e ∈ (account before).dependents c, e ∈ reruns during ∨ ∃ mark ∈ during, mark.Retires e
  /-- An effect that has been given up starts no more run. -/
  silent : ∀ {before after : List (Mark V)} {mark : Mark V} {e : EffectId},
    log = before ++ mark :: after →
    mark.Retires e → e < (account before).effects → .spawned e ∉ after ∧ .reran e ∉ after

/-! ### What a proper log says about effects -/

theorem mem_gone_after (a : Account V) (mark : Mark V) (e : EffectId) :
    e ∈ (a.after mark).gone ↔ e ∈ a.gone ∨ mark.Retires e ∧ e < a.effects := by
  have retired {d : EffectId} (given : ∀ e, mark.Retires e ↔ e = d) :
      e ∈ (if d < a.effects then { a with gone := d :: a.gone } else a).gone ↔
        e ∈ a.gone ∨ mark.Retires e ∧ e < a.effects := by
    rw [given]
    split
    · rw [List.mem_cons, or_comm]
      exact or_congr_right ⟨fun he => ⟨he, he ▸ ‹_›⟩, And.left⟩
    · exact (or_iff_left (by rintro ⟨rfl, he⟩; contradiction)).symm
  cases mark with
  | disposed d => exact retired fun e => by simp [Mark.Retires, eq_comm]
  | dropped d => exact retired fun e => by simp [Mark.Retires, eq_comm]
  | ended d =>
    rw [Account.after]
    split <;> simp [Mark.Retires]
  | _ => simp [Account.after, Mark.Retires]

theorem mem_gone_append (log news : List (Mark V)) (e : EffectId)
    (h : e ∈ (account (log ++ news)).gone) :
    e ∈ (account log).gone ∨ ∃ mark ∈ news, mark.Retires e := by
  induction news using List.reverseRecOn with
  | nil => exact .inl (List.append_nil log ▸ h)
  | append_singleton news mark ih =>
    rw [← List.append_assoc, account_concat, mem_gone_after] at h
    rcases h with old | ⟨retires, -⟩
    · refine (ih old).imp_right fun ⟨k, hk, retires⟩ => ⟨k, List.mem_append_left _ hk, retires⟩
    · exact .inr ⟨mark, by simp, retires⟩

/-- Effects stay, and those that have been given up stay so. -/
theorem gone_lasts (log news : List (Mark V)) :
    (account log).effects ≤ (account (log ++ news)).effects ∧
    ∀ e ∈ (account log).gone, e ∈ (account (log ++ news)).gone := by
  induction news using List.reverseRecOn with
  | nil =>
    rw [List.append_nil]
    exact ⟨Nat.le_refl _, fun _ => id⟩
  | append_singleton news mark ih =>
    rw [← List.append_assoc, account_concat]
    refine ⟨Nat.le_trans ih.1 ?_, fun e he => (mem_gone_after _ mark e).2 (.inl (ih.2 e he))⟩
    rw [Account.effects_after]
    split
    · exact Nat.le_succ _
    · exact Nat.le_refl _

namespace Proper

/-- Only effects that have been created run or are given up. -/
theorem known (h : Proper log) :
    ∀ e, e ∈ (account log).running ∨ e ∈ (account log).gone → e < (account log).effects := by
  induction h with
  | nil => rintro e (he | he) <;> cases he
  | @concat log mark _ lawful ih =>
    intro e he
    have grown := (gone_lasts log [mark]).1
    rcases he with runs | gone
    · rw [lawful.running] at runs
      cases lawful with
      | spawned =>
        rw [account_concat, Account.effects_after]
        rcases List.mem_cons.1 runs with rfl | runs
        · exact Nat.lt_succ_self _
        · exact Nat.lt_succ_of_lt (ih e (.inl runs))
      | reran top known =>
        refine Nat.lt_of_lt_of_le ?_ grown
        rcases List.mem_cons.1 runs with rfl | runs
        · exact known
        · exact ih e (.inl runs)
      | ended => exact Nat.lt_of_lt_of_le (ih e (.inl (List.mem_of_mem_tail runs))) grown
      | _ => exact Nat.lt_of_lt_of_le (ih e (.inl runs)) grown
    · rw [account_concat, mem_gone_after] at gone
      exact Nat.lt_of_lt_of_le (gone.elim (fun he => ih e (.inr he)) And.right) grown

/-- What the innermost announcement has done as long as nothing else changes. -/
theorem announced {during : List (Mark V)} {c : CellId} {v : V} {captured : List ListenerId}
    (h : Proper (before ++ .changed c v captured :: during))
    (unchanged : ∀ d w ls, .changed d w ls ∉ during) (unsettled : ∀ d, .settled d ∉ during) :
    ∃ r rest, (account (before ++ .changed c v captured :: during)).rounds = r :: rest ∧
      r.due = (account before).dependents c ∧ r.ran = reruns during ∧ r.calm = true := by
  induction during using List.reverseRecOn with
  | nil =>
    have lawful := h.lawful
    exact ⟨_, _, lawful.rounds, rfl, rfl, rfl⟩
  | append_singleton during mark ih =>
    rw [← List.cons_append, ← List.append_assoc] at h ⊢
    obtain ⟨h, lawful⟩ := h.last
    obtain ⟨r, rest, rounds, due, ran, calm⟩ :=
      ih h (fun d w ls hm => unchanged d w ls (List.mem_append_left _ hm))
      fun d hm => unsettled d (List.mem_append_left _ hm)
    have same (news : mark.rerun? = none) : reruns (during ++ [mark]) = reruns during := by
      simp [reruns, news]
    rw [lawful.rounds]
    cases lawful with
    | changed =>
      exact absurd (List.mem_append_right _ (List.mem_singleton_self _)) (unchanged _ _ _)
    | settled => exact absurd (List.mem_append_right _ (List.mem_singleton_self _)) (unsettled _)
    | called =>
      rw [Account.roundsAfter, rounds]
      exact ⟨_, _, rfl, due, ran.trans (same rfl).symm, calm⟩
    | reran =>
      rw [Account.roundsAfter, rounds]
      refine ⟨_, _, rfl, due, ?_, calm⟩
      simp [reruns, Mark.rerun?, ran]
    | _ => exact ⟨r, rest, rounds, due, ran.trans (same rfl).symm, calm⟩

theorem scheduled (h : Proper log) : Scheduled log where
  alone := by
    rintro before after e (rfl | rfl)
    · cases h.lawful with
      | spawned => exact fun he => Nat.lt_irrefl _ (h.of_append.known _ (.inl he))
    · cases h.lawful with
      | reran top known read due fresh present rests => exact rests
  caused := by
    rintro before after e rfl
    cases h.lawful with
    | @reran _ l r layers top known read =>
      have hr : r ∈ (account before).rounds := rounds_of_call top ▸ List.mem_cons_self
      exact ⟨l, r, layers, top, h.of_append.changed_mem r hr, read⟩
  once := by
    rintro before after rfl r hr
    exact (h.of_append.orderly r hr).once
  complete := by
    rintro before during after c v captured rfl unchanged unsettled
    rw [← List.cons_append, ← List.append_assoc] at h
    obtain ⟨r, rest, rounds, due, ran, calm⟩ := h.of_append.announced unchanged unsettled
    have orderly := h.of_append.orderly r (rounds ▸ List.mem_cons_self)
    rw [← ran, ← due]
    refine ⟨orderly.once, orderly.asked, fun e he => ?_⟩
    have present : e ∉ (account before).gone :=
      (Account.mem_readers.1 (List.mem_of_mem_filter (due ▸ he))).2.1
    cases h.lawful with
    | settled top done heard =>
      obtain rfl := (List.cons.inj (rounds.symm.trans (rounds_of_round top))).1
      refine (heard calm e he).symm.imp_right fun gone => ?_
      obtain ⟨mark, hm, retires⟩ := (mem_gone_append before _ e gone).resolve_left present
      rcases List.mem_cons.1 hm with rfl | hm
      · exact absurd retires (by simp [Mark.Retires])
      · exact ⟨mark, hm, retires⟩
  silent := by
    rintro before after mark e rfl retires known
    have gone : e ∈ (account (before ++ [mark])).gone := by
      rw [account_concat, mem_gone_after]
      exact .inr ⟨retires, known⟩
    rw [List.append_cons] at h
    refine ⟨fun hm => ?_, fun hm => ?_⟩ <;> obtain ⟨first, rest, rfl⟩ := List.append_of_mem hm <;>
      rw [← List.append_assoc] at h
    · have grown := gone_lasts before (mark :: first)
      rw [List.append_cons] at grown
      generalize before ++ [mark] ++ first = log at h grown
      cases h.lawful with
      | spawned => exact Nat.lt_irrefl _ (Nat.lt_of_lt_of_le known grown.1)
    · have lasts := (gone_lasts (before ++ [mark]) first).2 e gone
      cases h.lawful with
      | reran top known read due fresh present => exact present lasts

end Proper

/-- The runs of effects keep to the schedule, however changes, calls and runs nest. -/
theorem runs_keep_schedule (honest : m.Honest keeps) {g₀ g : Graph B V W} (blank : g₀.Blank keeps)
    {calls : List (Nat × Program B V W Unit)} (alone : ∀ call ∈ calls, call.2.HonestAlone keeps)
    (ran : runAll m calls g₀ = some g) : ∃ log, logAll m calls ⟨g₀, []⟩ = some ⟨g, log⟩ ∧
    Scheduled log := by
  obtain ⟨log, logged⟩ := exists_log (s := ⟨g₀, []⟩) ran
  exact ⟨log, logged, (blank.rested.calls honest alone logged).proper.scheduled⟩

namespace Script

/-- Of two effects that read a cell, a listener disposes the second before the change of the cell is
announced to it. -/
def disposedInTime : List (Nat × Code Unit) :=
  [.spawn "first" [.read .get "x"], .subscribe "disposer" "x" [.dispose "second"],
    .spawn "second" [.read .get "x"], .set "x" (.text "one")].map fun s => (8, statement s)

theorem runs_keep_schedule_disposed :
    ∃ g log, runAll meaning disposedInTime (begin 20 [("x", .text "")]) = some g ∧
    logAll meaning disposedInTime ⟨begin 20 [("x", .text "")], []⟩ = some ⟨g, log⟩ ∧
    reruns log = [0] ∧ Scheduled log := by
  have alone : ∀ call ∈ disposedInTime, call.2.HonestAlone Keeps := honest_script _
  have evaluated : (logAll meaning disposedInTime ⟨begin 20 [("x", .text "")], []⟩).map
      (fun s => reruns s.log) = some [0] := by
    rfl
  obtain ⟨⟨g, log⟩, logged, first⟩ := Option.map_eq_some_iff.1 evaluated
  have ran : runAll meaning disposedInTime (begin 20 [("x", .text "")]) = some g := by
    rw [← logAll_erase meaning disposedInTime ⟨begin 20 [("x", .text "")], []⟩, logged]
    rfl
  obtain ⟨log', logged', scheduled⟩ :=
    runs_keep_schedule honest_meaning (blank_begin 20 [("x", .text "")]) alone ran
  obtain rfl : log' = log := congrArg Logged.log (Option.some.inj (logged'.symm.trans logged))
  exact ⟨g, log', ran, logged, first, scheduled⟩

end Script
end StoryPreview.Reactive
