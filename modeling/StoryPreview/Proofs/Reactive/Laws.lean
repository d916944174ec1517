import Mathlib.Data.List.Induction
import StoryPreview.Proofs.Reactive.Log
/-!
Proper logs. What is under way, and what has happened before, says with which marks a log can go on.
The rounds of a proper log are orderly at any moment, and each mark has a simple effect on them.
-/
namespace StoryPreview.Reactive
variable {V : Type} {log news before after : List (Mark V)} {mark : Mark V}

inductive Lawful (log : List (Mark V)) : Mark V → Prop where
  | read (c : CellId) : Lawful log (.read c)
  /-- A change captures the listeners that are guarded, and of others only those that an
  announcement has captured. -/
  | changed {c : CellId} {v : V} {captured : List ListenerId} (nodup : captured.Nodup)
    (guarded : ∀ {l : ListenerId}, (c, l) ∈ (account log).guards → l ∈ captured)
    (own : ∀ {d : CellId} {l : ListenerId}, l ∈ captured → .subscribed d l ∈ log →
      d = c ∧ ((c, l) ∈ (account log).guards ∨ ∃ r ∈ (account log).rounds, l ∈ r.captured)) :
    Lawful log (.changed c v captured)
  /-- An announcement ends when all have been called. Unless something else has changed, all that
  were due have run. -/
  | settled {r : Round V} {layers : List (Layer V)}
    (top : (account log).layers = .round r :: layers)
    (done : r.pending = []) (heard : r.calm = true → ∀ e ∈ r.due, e ∈ (account log).gone ∨
      e ∈ r.ran) :
    Lawful log (.settled r.cell)
  | called {r : Round V} {layers : List (Layer V)} {l : ListenerId} {ls : List ListenerId}
    (top : (account log).layers = .round r :: layers) (pending : r.pending = l :: ls) :
      Lawful log (.called l r.value)
  | returned {l : ListenerId} {layers : List (Layer V)}
    (top : (account log).layers = .call l :: layers) : Lawful log (.returned l)
  | suspended : Lawful log .suspended
  | resumed {layers : List (Layer V)} (top : (account log).layers = .untracked :: layers) :
    Lawful log .resumed
  | subscribed (c : CellId) {l : ListenerId} (fresh : ∀ d, .subscribed d l ∉ log) :
    Lawful log (.subscribed c l)
  | released (l : ListenerId) : Lawful log (.released l)
  | spawned : Lawful log (.spawned (account log).effects)
  /-- An effect runs again in a call that an announcement makes. -/
  | reran {e : EffectId} {l : ListenerId} {r : Round V} {layers : List (Layer V)}
    (top : (account log).layers = .call l :: .round r :: layers) (known : e < (account log).effects)
    (read : r.cell ∈ (account log).latest e) (due : e ∈ r.due) (fresh : e ∉ r.ran)
    (present : e ∉ (account log).gone) (rests : e ∉ (account log).running) :
    Lawful log (.reran e)
  | ended {e : EffectId} {reads : List CellId} {layers : List (Layer V)}
    (top : (account log).layers = .run e reads :: layers) : Lawful log (.ended e)
  | disposed (e : EffectId) : Lawful log (.disposed e)
  | dropped (e : EffectId) : Lawful log (.dropped e)

inductive Proper : List (Mark V) → Prop where
  | nil : Proper []
  | concat {log : List (Mark V)} {mark : Mark V} (h : Proper log) (lawful : Lawful log mark) :
    Proper (log ++ [mark])

namespace Proper

theorem last (h : Proper (log ++ [mark])) : Proper log ∧ Lawful log mark := by
  generalize whole : log ++ [mark] = all at h
  cases h with
  | nil => exact absurd whole (by simp)
  | concat h lawful =>
    obtain ⟨rfl, heq⟩ := List.append_inj' whole rfl
    obtain rfl := List.singleton_inj.1 heq
    exact ⟨h, lawful⟩

theorem twice (h : Proper (log ++ [mark])) {mark' : Mark V}
    (lawful : Lawful (log ++ [mark]) mark') : Proper (log ++ [mark, mark']) := by
  rw [List.append_cons]
  exact h.concat lawful

theorem of_append (h : Proper (log ++ news)) : Proper log := by
  induction news using List.reverseRecOn with
  | nil => rwa [List.append_nil] at h
  | append_singleton news mark ih =>
    rw [← List.append_assoc] at h
    exact ih h.last.1

theorem lawful (h : Proper (before ++ mark :: after)) : Lawful before mark := by
  rw [List.append_cons] at h
  exact h.of_append.last.2

end Proper

/-! ### Announcements -/

def Account.roundsAfter (a : Account V) : Mark V → List (Round V)
  | .changed c v captured => a.announcement c v captured :: a.rounds.map .stirred
  | .settled _ => a.rounds.tail
  | .called l _ => a.rounds.modifyHead fun r => { r with pending := r.pending.erase l }
  | .reran e => a.rounds.modifyHead fun r => { r with ran := r.ran ++ [e] }
  | _ => a.rounds

/-- A layer that is none of those that are looked for may be left. -/
theorem filterMap_tail {β : Type} {f : Layer V → Option β} {layer : Layer V}
    {layers all : List (Layer V)} (top : all = layer :: layers) (none : f layer = none) :
    all.tail.filterMap f = all.filterMap f := by
  rw [top, List.filterMap_cons_none none, List.tail_cons]

theorem Lawful.rounds (h : Lawful log mark) :
    (account (log ++ [mark])).rounds = (account log).roundsAfter mark := by
  rw [account_concat]
  cases h with
  | read c => exact Layer.filterMap_round_credit c _
  | changed => exact congrArg (List.cons _) (Layer.filterMap_round_stir _)
  | settled top => rw [Account.after, Account.roundsAfter, Account.rounds, Account.rounds, top]; rfl
  | called top => rw [Account.after, Account.roundsAfter, Account.rounds, Account.rounds, top]; rfl
  | returned top => exact filterMap_tail top rfl
  | resumed top => exact filterMap_tail top rfl
  | reran top => rw [Account.after, Account.roundsAfter, Account.rounds, Account.rounds, top]; rfl
  | ended top =>
    rw [Account.after, top]; exact (List.filterMap_cons_none rfl).symm.trans (congrArg _ top.symm)
  | disposed e | dropped e =>
    rw [Account.after]
    split <;> rfl
  | _ => rfl

structure Round.Orderly (r : Round V) : Prop where
  pending : r.pending.Sublist r.captured
  nodup : r.captured.Nodup
  once : r.ran.Nodup
  asked : ∀ e ∈ r.ran, e ∈ r.due

theorem Round.Orderly.rerun {r : Round V} {e : EffectId} (h : r.Orderly) (due : e ∈ r.due)
    (fresh : e ∉ r.ran) : Round.Orderly { r with ran := r.ran ++ [e] } where
  pending := h.pending
  nodup := h.nodup
  once := List.nodup_append.2 ⟨h.once, by simp,
    fun d hd k hk => ne_of_mem_of_not_mem hd (List.mem_singleton.1 hk ▸ fresh)⟩
  asked := by
    intro d hd
    rcases List.mem_append.1 hd with hd | hd
    · exact h.asked d hd
    · exact List.mem_singleton.1 hd ▸ due

theorem Proper.orderly (h : Proper log) : ∀ r ∈ (account log).rounds, r.Orderly := by
  induction h with
  | nil => exact nofun
  | @concat log mark _ lawful ih =>
    rw [lawful.rounds]
    cases lawful with
    | changed nodup =>
      refine List.forall_mem_cons.2 ⟨⟨.refl _, nodup, List.nodup_nil, nofun⟩, fun r hr => ?_⟩
      obtain ⟨k, hk, rfl⟩ := List.mem_map.1 hr
      exact { ih k hk with }
    | settled => exact fun r hr => ih r (List.mem_of_mem_tail hr)
    | @called r _ l ls top pending =>
      rw [rounds_of_round top] at ih
      obtain ⟨first, others⟩ := List.forall_mem_cons.1 ih
      rw [Account.roundsAfter, rounds_of_round top]
      exact List.forall_mem_cons.2
        ⟨{ first with pending := List.erase_sublist.trans first.pending }, others⟩
    | reran top known read due fresh =>
      rw [rounds_of_call top] at ih
      obtain ⟨first, others⟩ := List.forall_mem_cons.1 ih
      rw [Account.roundsAfter, rounds_of_call top]
      exact List.forall_mem_cons.2 ⟨first.rerun due fresh, others⟩
    | _ => exact ih

theorem Proper.changed_mem (h : Proper log) :
    ∀ r ∈ (account log).rounds, .changed r.cell r.value r.captured ∈ log := by
  induction h with
  | nil => exact nofun
  | @concat log mark _ lawful ih =>
    rw [lawful.rounds]
    replace ih : ∀ r ∈ (account log).rounds, .changed r.cell r.value r.captured ∈ log ++ [mark] :=
      fun r hr => List.mem_append_left _ (ih r hr)
    cases lawful with
    | changed =>
      refine List.forall_mem_cons.2 ⟨by simp [Account.announcement], fun r hr => ?_⟩
      obtain ⟨k, hk, rfl⟩ := List.mem_map.1 hr
      exact ih k hk
    | settled => exact fun r hr => ih r (List.mem_of_mem_tail hr)
    | called top =>
      rw [rounds_of_round top] at ih
      rw [Account.roundsAfter, rounds_of_round top]
      exact List.forall_mem_cons.2 (List.forall_mem_cons.1 ih)
    | reran top =>
      rw [rounds_of_call top] at ih
      rw [Account.roundsAfter, rounds_of_call top]
      exact List.forall_mem_cons.2 (List.forall_mem_cons.1 ih)
    | _ => exact ih

/-! ### Effects -/

def Layer.block? : Layer V → Option (Option EffectId)
  | .run e _ => some (some e)
  | .untracked => some none
  | _ => none

def Account.blocks (a : Account V) : List (Option EffectId) := a.layers.filterMap Layer.block?

def nest (blocks : List (Option EffectId)) : Mark V → List (Option EffectId)
  | .spawned e | .reran e => some e :: blocks
  | .suspended => none :: blocks
  | .ended _ | .resumed => blocks.tail
  | _ => blocks

theorem Lawful.blocks (h : Lawful log mark) :
    (account (log ++ [mark])).blocks = nest (account log).blocks mark := by
  rw [account_concat]
  cases h with
  | read c => exact Layer.filterMap_credit (fun _ _ _ => rfl) c _
  | changed => exact Layer.filterMap_stir (fun layer => by cases layer <;> rfl) _
  | settled top => exact filterMap_tail top rfl
  | called top =>
    change _ = (account log).blocks
    rw [Account.after, Account.blocks, Account.blocks, top]
    rfl
  | returned top => exact filterMap_tail top rfl
  | resumed top => rw [Account.after, Account.blocks, Account.blocks, top]; rfl
  | reran top => rw [Account.after, Account.blocks, Account.blocks, top]; rfl
  | ended top => rw [Account.after, Account.blocks, Account.blocks, top]; rfl
  | disposed e | dropped e =>
    rw [Account.after]
    split <;> rfl
  | _ => rfl

theorem Account.running_eq (a : Account V) : a.running = a.blocks.filterMap id := by
  rw [Account.running, Account.blocks, List.filterMap_filterMap]
  exact congrFun (congrArg List.filterMap (funext fun layer => by cases layer <;> rfl)) a.layers

def Account.runningAfter (a : Account V) : Mark V → List EffectId
  | .spawned e | .reran e => e :: a.running
  | .ended _ => a.running.tail
  | _ => a.running

theorem Lawful.running (h : Lawful log mark) :
    (account (log ++ [mark])).running = (account log).runningAfter mark := by
  rw [Account.running_eq, h.blocks]
  cases h with
  | resumed top =>
    change _ = (account log).running
    rw [Account.running_eq, Account.blocks, top]
    rfl
  | ended top => rw [Account.runningAfter, Account.running_eq, Account.blocks, top]; rfl
  | spawned => exact congrArg (List.cons _) (Account.running_eq _).symm
  | reran => exact congrArg (List.cons _) (Account.running_eq _).symm
  | _ => exact (Account.running_eq _).symm

theorem Account.effects_after (a : Account V) (mark : Mark V) :
    (a.after mark).effects = match mark with | .spawned _ => a.effects + 1 | _ => a.effects := by
  cases mark with
  | ended e =>
    rw [Account.after]
    split <;> rfl
  | disposed e =>
    rw [Account.after]
    split <;> rfl
  | dropped e =>
    rw [Account.after]
    split <;> rfl
  | _ => rfl

end StoryPreview.Reactive
