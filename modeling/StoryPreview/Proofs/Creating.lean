import StoryPreview.Proofs.Mirroring
/-!
The creation of a stored value: what is under its key is read, a first value is written there, and
then there is a new cell with a listener that writes. The listener is the only one of the cell, so
it leads it.
-/
namespace StoryPreview

theorem Reactive.Graph.SameParts.trans {B V W : Type} {g g' g'' : Reactive.Graph B V W}
    (h : g.SameParts g') (h' : g'.SameParts g'') : g.SameParts g'' :=
  ⟨h'.cells.trans h.cells, h'.listeners.trans h.listeners, h'.effects.trans h.effects⟩

open Reactive Program

namespace Stored
variable {V : Type}

/-- What is new once a value has been written: a cell that holds it, and the listener that writes
what the cell takes. -/
def withCell (g : System V) (key : String) (v : V) : System V :=
  ((g.addCell v).2.subscribe g.cells.length (.call (.store key))).2

section Cell
variable {g : System V} {key : String} {v : V} {l : ListenerId}

theorem withCell_cells : (withCell g key v).cells.length = g.cells.length + 1 := by
  simp [withCell, Graph.addCell, Graph.subscribe]

theorem withCell_listeners : (withCell g key v).listeners.length = g.listeners.length + 1 :=
  Graph.subscribe_length _ _

theorem withCell_old (old : l < g.listeners.length) :
    (withCell g key v).listeners[l]? = g.listeners[l]? :=
  Graph.subscribe_listener_old (g := (g.addCell v).2) _ _ old

theorem withCell_new :
    (withCell g key v).listeners[g.listeners.length]? = some { reaction := .call (.store key) } :=
  Graph.subscribe_listener_new (g := (g.addCell v).2) _ _

/-- A listener that is there then was there before, or it is the new one. -/
theorem withCell_cases {y : Listener Duty} (hy : (withCell g key v).listeners[l]? = some y) :
    g.listeners[l]? = some y ∨ l = g.listeners.length ∧ y.reaction = .call (.store key) := by
  have bound := (List.getElem?_eq_some_iff.1 hy).1
  rw [withCell_listeners] at bound
  rcases Nat.lt_succ_iff_lt_or_eq.1 bound with old | rfl
  · exact .inl (withCell_old old ▸ hy)
  · obtain rfl := Option.some.inj (withCell_new.symm.trans hy)
    exact .inr ⟨rfl, rfl⟩

theorem withCell_ages : g.Ages (withCell g key v) :=
  (Graph.Ages.addCell g v).trans (.subscribe _ _ _)

theorem withCell_slots (c : CellId) : (withCell g key v).slotsOf c =
    g.slotsOf c ++ if g.cells.length = c then [g.listeners.length] else [] := by
  rw [withCell, Graph.slotsOf_subscribe, Graph.slotsOf_addCell]
  congr 1
  by_cases hc : g.cells.length = c
  · simp [← hc, Graph.addCell]
  · simp [hc]

theorem withCell_shows : (withCell g key v).Shows (g.cells.length, v) :=
  ((Graph.Steady.subscribe _ _ _).value _).trans (by simp [Graph.addCell])

/-- The new listener leads the new cell. -/
theorem withCell_leads (ordered : g.Ordered) :
    (withCell g key v).Leads g.cells.length g.listeners.length := by
  have one : (withCell g key v).slotsOf g.cells.length = [g.listeners.length] := by
    rw [withCell_slots, if_pos rfl]
    simp [Graph.slotsOf]
  constructor
  case ordered => exact withCell_ages.ordered ordered
  case cell => exact withCell_cells ▸ Nat.lt_succ_self _
  case listener => exact withCell_listeners ▸ Nat.lt_succ_self _
  case first =>
    intro k hk
    rw [one, List.mem_singleton] at hk
    exact Nat.le_of_eq hk.symm
  case home =>
    intro c hc
    rw [withCell_slots, List.mem_append] at hc
    have fresh := hc.resolve_left fun hm => Nat.lt_irrefl _ (ordered.slot_lt hm)
    by_contra other
    rw [if_neg (Ne.symm other)] at fresh
    cases fresh
  case attached =>
    intro _
    rw [one]
    exact List.mem_singleton_self _

end Cell

section Run
variable {same : V → V → Bool} {perform : Doer Duty V Preview} {g : System V} {format : Format V}
    {key : String}

/-- What is read of a text under a key, if reading succeeds. -/
theorem readWith?_entry {parse : String → Except String V} {text : String}
    (entry : g.world.page.storage.raw? key = some text) :
    (readWith? parse key).Ends same perform g fun r g' =>
      r = (if g.world.page.storage.reads.admits then (parse text).toOption else none) ∧
      g.SameParts g' ∧
        g'.world.page = (g.world.page.load key).2 := by
  refine readWith?_ends.imp ?_
  rintro _ _ ⟨rfl, ns, rfl⟩
  refine ⟨?_, ⟨by simp, by simp, by simp⟩, by rw [Graph.recordAll_world]; rfl⟩
  cases admits : g.world.page.storage.reads.admits with
  | true =>
    have loaded : (g.world.page.load key).1 = .ok (some text) := by
      simp [Page.load, Storage.load, admits, entry]
    rw [loaded]
    rfl
  | false =>
    have loaded : (g.world.page.load key).1 = .error (.unreadable key "denied") := by
      simp [Page.load, Storage.load, admits]
    rw [loaded]
    rfl

/-- What has been read, or else the default, is stored once and put into a new cell. -/
theorem createWith_made {read : Option V → System V → Prop}
    (h : (readWith? format.read key).Ends same perform g read) (default : V) :
    (createWith format key default).Ends same perform g fun s g' => ∃ found g₁ g₂, read found g₁ ∧
      (∃ n, g₂ = (g₁.withWorld { g₁.world with
        page := (storeWith format.write key (found.getD default) g₁.world.page).2
          }).recordAll [n]) ∧
      s = ⟨key, format, g₂.cells.length, g₂.listeners.length⟩ ∧
      g' = withCell g₂ key (found.getD default) := by
  rw [createWith, ends_bind]
  refine h.imp fun found g₁ read => ?_
  rw [ends_bind]
  refine writeWith_ends.imp fun _ g₂ written => ?_
  simp only [ends_create, ends_subscribe, ends_done]
  exact ⟨found, g₁, g₂, read, written, rfl, rfl⟩

end Run
end Stored
end StoryPreview
