import StoryPreview.Document
import StoryPreview.Proofs.Reactive.Ending
/-!
Dialogues with documents. A dialogue is held with any document by taking its answers one after the
other; nothing else enters into what it ends with, and a program that performs it ends the same way.
-/
namespace StoryPreview
open Reactive
variable {M E W α β : Type}

structure Transcript (M E W α : Type) where
  outcome : α
  state : W
  /-- What was asked, in order. -/
  asked : List (Request M E)

namespace Transcript

def map (f : α → β) (t : Transcript M E W α) : Transcript M E W β := ⟨f t.outcome, t.state, t.asked⟩

def after (asked : List (Request M E)) (t : Transcript M E W α) : Transcript M E W α :=
  ⟨t.outcome, t.state, asked ++ t.asked⟩

variable {f : α → β} {t : Transcript M E W α} {asked : List (Request M E)}

@[simp] theorem map_outcome : (t.map f).outcome = f t.outcome := rfl

@[simp] theorem map_state : (t.map f).state = t.state := rfl

@[simp] theorem map_asked : (t.map f).asked = t.asked := rfl

@[simp] theorem after_outcome : (t.after asked).outcome = t.outcome := rfl

@[simp] theorem after_state : (t.after asked).state = t.state := rfl

@[simp] theorem after_asked : (t.after asked).asked = asked ++ t.asked := rfl

@[simp] theorem after_nil : t.after [] = t := rfl

@[simp] theorem after_after {before : List (Request M E)} :
    (t.after asked).after before = t.after (before ++ asked) := by
  simp [after]

@[simp] theorem map_after : (t.after asked).map f = (t.map f).after asked := rfl

@[simp] theorem map_mk {a : α} {w : W} : map f ⟨a, w, asked⟩ = ⟨f a, w, asked⟩ := rfl

@[simp] theorem after_mk {before : List (Request M E)} {a : α} {w : W} :
    after before ⟨a, w, asked⟩ = ⟨a, w, before ++ asked⟩ := rfl

end Transcript

namespace Dialogue

def hold (d : Document M E W) : Dialogue M E α → W → Transcript M E W α
  | done a, w => ⟨a, w, []⟩
  | tell _ next, w => next.hold d w
  | ask q next, w => ((next (d q w).1).hold d (d q w).2).after [q]

variable {d d' : Document M E W} {w : W}

@[simp] theorem hold_pure (a : α) : (pure a : Dialogue M E α).hold d w = ⟨a, w, []⟩ := rfl

-- The type of the answer is no index: where the request is known, it stands there reduced.
@[simp] theorem hold_request (q : Request M E) :
    @hold M E W (no_index q.Answer) d (request q) w = ⟨(d q w).1, (d q w).2, [q]⟩ := rfl

@[simp] theorem hold_say {level : Level} {topic : Topic} {text : String}
    {details : List (String × String)} :
    (say level topic text details).hold d w = ⟨(), w, []⟩ := rfl

@[simp] theorem hold_sayAll (ns : List Note) : (sayAll ns).hold d w = ⟨(), w, []⟩ := by
  induction ns with
  | nil => rfl
  | cons n ns ih => exact ih

@[simp] theorem hold_bind (p : Dialogue M E α) (f : α → Dialogue M E β) :
    (p >>= f).hold d w = ((f (p.hold d w).outcome).hold d (p.hold d w).state).after
      (p.hold d w).asked := by
  change (p.bind f).hold d w = _
  induction p generalizing w with
  | done a => rfl
  | tell n next ih => exact ih
  | ask q next ih =>
    simp only [Dialogue.bind, hold, ih]
    rfl

/-- Documents that answer alike what is asked are told apart by nothing. -/
theorem hold_congr {p : Dialogue M E α} (h : ∀ q ∈ (p.hold d w).asked, ∀ w, d' q w = d q w) :
    p.hold d' w = p.hold d w := by
  induction p generalizing w with
  | done a => rfl
  | tell n next ih => exact ih h
  | ask q next ih =>
    have same : d' q w = d q w := h q List.mem_cons_self w
    rw [hold, hold, same, ih _ fun q hq => h q (List.mem_cons_of_mem _ hq)]

variable {B V : Type} {same : V → V → Bool} {doer : Doer B V W} {g : Graph B V W}

/-- A program that performs a dialogue ends as the dialogue does. -/
theorem ends_perform (p : Dialogue M E α) :
    (p.perform d).Ends same doer g fun a g' =>
      a = (p.hold d g.world).outcome ∧ g'.world = (p.hold d g.world).state := by
  induction p generalizing g with
  | done a => exact Program.ends_done.2 ⟨rfl, rfl⟩
  | tell n next ih => exact Program.ends_report.2 ih
  | ask q next ih => exact Program.ends_ask.2 (Program.ends_change.2 (ih _))

end Dialogue
end StoryPreview
