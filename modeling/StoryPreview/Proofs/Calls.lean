import StoryPreview.Proofs.Steps
/-!
The calls that a page was asked to carry out. What watchers have seen and what was stored stands
beside them in the record of a page, and nothing that a page does depends on it.
-/
namespace StoryPreview
open Reactive

def Deed.call? : Deed → Option (Call × Bool)
  | .called call refused => some (call, refused)
  | _ => none

namespace Page

def calls (p : Page) : List (Call × Bool) := p.deeds.filterMap Deed.call?

/-- Only the store, and what is recorded beside calls, differs. -/
structure Still (p q : Page) : Prop where
  rest : q = { p with storage := q.storage, deeds := q.deeds }
  calls : q.calls = p.calls

variable {p q r : Page}

theorem calls_note (p : Page) (d : Deed) : (p.note d).calls = (d.call?).toList ++ p.calls := by
  rw [calls, note, List.filterMap_cons]
  cases d.call? <;> rfl

namespace Still

theorem refl (p : Page) : p.Still p := ⟨rfl, rfl⟩

theorem trans (h : p.Still q) (h' : q.Still r) : p.Still r where
  rest := by
    have hr := h'.rest
    rw [h.rest] at hr
    exact hr
  calls := h'.calls.trans h.calls

theorem exists_eq (h : p.Still q) :
    ∃ storage deeds, q = { p with storage := storage, deeds := deeds } ∧
    deeds.filterMap Deed.call? = p.calls := ⟨_, _, h.rest, h.calls⟩

theorem location (h : p.Still q) : q.location = p.location := by rw [h.rest]

theorem sourceOf (h : p.Still q) (f : FrameId) : q.sourceOf f = p.sourceOf f := by rw [h.rest]; rfl

theorem frame? (h : p.Still q) (f : FrameId) : q.frame? f = p.frame? f := by rw [h.rest]; rfl

theorem origin (h : p.Still q) : q.origin = p.origin := by rw [h.rest]

theorem note {d : Deed} (p : Page) (hd : d.call? = none) : p.Still (p.note d) :=
  ⟨rfl, by rw [calls_note, hd]; rfl⟩

theorem store (p : Page) (key text : String) : p.Still (p.store key text).2 := by
  unfold Page.store
  split <;> exact ⟨rfl, rfl⟩

theorem call (h : p.Still q) (c : Call) :
    (q.call c).1 = (p.call c).1 ∧ (p.call c).2.Still (q.call c).2 := by
  obtain ⟨storage, deeds, rfl, hc⟩ := h.exists_eq
  unfold Page.call
  by_cases ha : (p.allowance c.kind).admits
  · simp only [ha, if_true, true_and]
    cases c with
    | setClass s name on =>
      cases s <;> exact ⟨rfl, by simp only [calls_note]; exact congrArg _ hc⟩
    | _ => exact ⟨rfl, by simp only [calls_note]; exact congrArg _ hc⟩
  · simp only [ha, Bool.false_eq_true, if_false, true_and]
    exact ⟨rfl, by simp only [calls_note]; exact congrArg _ hc⟩

theorem withArguments (h : p.Still q) (args : Arguments) :
    (p.withArguments args).Still (q.withArguments args) := by
  unfold Page.withArguments
  rw [h.location]
  split
  · exact h
  · exact (h.call _).2

theorem ledTo (h : p.Still q) (f : FrameId) (a : Address) (origin : String) :
    (p.ledTo f a origin).Still (q.ledTo f a origin) := by
  unfold Page.ledTo
  rw [h.sourceOf]
  split
  · exact h
  · exact (h.call _).2

theorem change (h : p.Still q) (c : Change) : (p.change c).Still (q.change c) := by
  obtain ⟨storage, deeds, rfl, hc⟩ := h.exists_eq
  cases c <;> exact ⟨rfl, hc⟩

end Still
end Page

structure Preview.Still (s s' : Preview) : Prop where
  rest : s' = { s with page := s'.page }
  page : s.page.Still s'.page

namespace Preview.Still
variable {s s' s'' : Preview}

theorem refl (s : Preview) : s.Still s := ⟨rfl, .refl _⟩

theorem trans (h : s.Still s') (h' : s'.Still s'') : s.Still s'' where
  rest := by
    have hr := h'.rest
    rw [h.rest] at hr
    exact hr
  page := h.page.trans h'.page

theorem onPage {p : Page} (s : Preview) (h : s.page.Still p) : s.Still { s with page := p } :=
  ⟨rfl, h⟩

theorem session (h : s.Still s') : s'.session = s.session := by rw [h.rest]
theorem address (h : s.Still s') : s'.address = s.address := by rw [h.rest]
theorem bound (h : s.Still s') : s'.bound = s.bound := by rw [h.rest]
theorem bindings (h : s.Still s') : s'.bindings = s.bindings := by rw [h.rest]
theorem status (h : s.Still s') : s'.status = s.status := by rw [h.rest]
theorem isOpen (h : s.Still s') : s'.isOpen = s.isOpen := by rw [h.rest]

theorem withArguments (h : s.Still s') (args : Arguments) :
    Preview.Still { s with page := s.page.withArguments args }
      { s' with page := s'.page.withArguments args } where
  rest := by rw [h.rest]
  page := h.page.withArguments args

theorem ledTo (h : s.Still s') (a : Address) (origin : String) :
    (s.ledTo a origin).Still (s'.ledTo a origin) := by
  unfold Preview.ledTo
  rw [h.session]
  split
  · refine ⟨?_, h.page⟩
    rw [h.rest]
  · refine ⟨?_, ?_⟩
    · rw [h.rest]
    · dsimp only
      exact h.page.ledTo _ a origin

end Preview.Still

namespace Duty
variable {d : Duty} {val : CellId → Signal} {v : Signal} {s s' : Preview}

theorem IsWatch.still (hd : d.IsWatch) (h : d.Acts val s s') : s.Still s' := by
  cases d with
  | watch name view theme scripts =>
    rcases (h : s' = s ∨ ∃ sight, s' = { s with page := s.page.note (.watched name sight) }) with
      rfl | ⟨sight, rfl⟩
    · exact .refl s'
    · exact .onPage s (.note s.page rfl)
  | _ => exact hd.elim

theorem Hears.still (h : d.Hears v s s') : s.Still s' := by
  rcases h.page with rfl | ⟨key, text, rfl⟩
  · exact .refl s'
  · exact .onPage s (.store s.page key text)

end Duty
end StoryPreview
