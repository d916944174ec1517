import StoryPreview.Proofs.Calls
import StoryPreview.Proofs.Reactive.Turns
/-!
Who listens in a preview between two steps. The two effects of a bound story stand in a fixed order
behind its arguments, the one that leads the frame also behind the theme, and neither stands
anywhere else. A change makes those of them that hear of it run in this order, and brings them back
to where they stood.
-/
namespace StoryPreview
open Reactive Program

def Duty.binds : Duty → Bool
  | .followUrl _ | .followAddress _ => true
  | _ => false

theorem Duty.IsWatch.binds {duty : Duty} (h : duty.IsWatch) : duty.binds = false := by
  cases duty with
  | watch name view theme scripts => rfl
  | _ => exact h.elim

/-- The duties of a bound story read what they follow, and nothing else. -/
def App.exact : App.calm.Exact where
  exact d := d.binds = true
  reads := by
    intro perform d g scopes hd hs hm hfit
    cases d with
    | followUrl a =>
      have ha : a < g.cells.length := hm a (by simp [App.calm, Duty.mentions, Duty.follows])
      refine (UrlSync.follow_ends ha).imp ?_
      rintro _ g' ⟨-, tracked, -⟩
      refine ⟨[a], ?_, by simp, fun c hc => hc⟩
      simp [tracked, Graph.track, hs]
    | followAddress r =>
      have ht : r.theme < g.cells.length := hm _ (by simp [App.calm, Duty.mentions, Duty.follows])
      have ha : r.arguments < g.cells.length :=
        hm _ (by simp [App.calm, Duty.mentions, Duty.follows])
      refine (Controller.follow_ends ht ha).imp ?_
      rintro _ g' ⟨-, tracked, -⟩
      by_cases same : r.arguments = r.theme
      · refine ⟨[r.theme], ?_, by simp, ?_⟩
        · simp [tracked, Graph.track, hs, same]
        · simp [App.calm, Duty.follows]
      · refine ⟨[r.theme, r.arguments], ?_, ?_, fun c hc => hc⟩
        · simp [tracked, Graph.track, hs, same]
        · simp [Ne.symm same]
    | store key => cases hd
    | watch name view theme scripts => cases hd

namespace Bindings
variable (b : Bindings) {theme args : CellId}

def crew (theme args : CellId) (e : EffectId) : Option (List CellId) :=
  if e = b.url then some [args] else if e = b.address then some [theme, args] else none

def order (theme args c : CellId) : List EffectId :=
  if c = args then [b.url, b.address] else if c = theme then [b.address] else []

theorem crew_url : b.crew theme args b.url = some [args] := if_pos rfl

theorem crew_address (h : b.url ≠ b.address) :
    b.crew theme args b.address = some [theme, args] := by
  rw [crew, if_neg (Ne.symm h), if_pos rfl]

theorem crew_of_ne {e : EffectId} (url : e ≠ b.url) (address : e ≠ b.address) :
    b.crew theme args e = none := by
  rw [crew, if_neg url, if_neg address]

theorem eq_of_mem_order {c : CellId} {e : EffectId} (he : e ∈ b.order theme args c) :
    e = b.url ∨ e = b.address := by
  unfold order at he
  split at he
  · exact List.mem_pair.1 he
  · split at he
    · exact .inr (List.mem_singleton.1 he)
    · cases he

/-- Effects of which nobody has heard stand in order when they have started one after the other. -/
theorem turns_eq_order (h : b.url ≠ b.address) (hc : args ≠ theme) :
    Graph.turn (b.crew theme args) (Graph.turn (b.crew theme args) (fun _ => []) b.url) b.address =
      b.order theme args := by
  funext c
  rw [Graph.turn_of_some (b.crew_address h), Graph.turn_of_some b.crew_url]
  by_cases ha : c = args
  · simp [order, ha, h]
  · by_cases ht : c = theme
    · simp [order, ht, Ne.symm hc]
    · simp [order, ha, ht]

theorem turn_url (h : b.url ≠ b.address) (hc : args ≠ theme) (c : CellId) :
    Graph.turn (b.crew theme args) (b.order theme args) b.url c =
      if c = args then [b.address, b.url] else b.order theme args c := by
  rw [Graph.turn_of_some b.crew_url]
  by_cases ha : c = args
  · simp [order, ha, Ne.symm h]
  · by_cases ht : c = theme
    · simp [order, ht, Ne.symm h, Ne.symm hc]
    · simp [order, ha, ht]

/-- A change brings the effects that hear of it back to where they stood. -/
theorem order_turns (h : b.url ≠ b.address) (hc : args ≠ theme) (c : CellId) :
    (b.order theme args c).foldl (Graph.turn (b.crew theme args)) (b.order theme args) =
      b.order theme args := by
  by_cases ha : c = args
  · have two : b.order theme args c = [b.url, b.address] := by rw [order, if_pos ha]
    rw [two, List.foldl_cons, List.foldl_cons, List.foldl_nil]
    funext e
    rw [Graph.turn_of_some (b.crew_address h), b.turn_url h hc]
    by_cases he : e = args
    · simp [order, he, h]
    · by_cases ht : e = theme
      · simp [order, ht, Ne.symm hc]
      · simp [order, he, ht]
  · by_cases ht : c = theme
    · have one : b.order theme args c = [b.address] := by rw [order, if_neg ha, if_pos ht]
      rw [one, List.foldl_cons, List.foldl_nil]
      funext e
      rw [Graph.turn_of_some (b.crew_address h)]
      by_cases he : e = args
      · simp [order, he, h]
      · by_cases het : e = theme
        · simp [order, het, Ne.symm hc]
        · simp [order, he, het]
    · have none : b.order theme args c = [] := by rw [order, if_neg ha, if_neg ht]
      rw [none, List.foldl_nil]

theorem order_nodup (h : b.url ≠ b.address) (c : CellId) : (b.order theme args c).Nodup := by
  unfold order
  split
  · simpa using h
  · split <;> simp

end Bindings

namespace App.Desk
variable {φ : Aspect → Prop} {d : Desk} {g g' : System}

/-- Every listener is a current one, no announcement is under way, and the cells of the toolbar hold
what they should. -/
structure Tidy (d : Desk) (g : System) : Prop where
  neat : g.Neat
  loose : g.Loose
  theme : ∃ t, g.value d.app.theme.cell = .theme t
  scripts : ∃ on, g.value d.app.toolbar.scripts = .flag on

structure InTurn (d : Desk) (g : System) (b : Bindings) (story : BoundStory) : Prop where
  status : g.world.status = .bound
  arguments : ∃ args, g.value story.arguments = .arguments args
  theme : story.arguments ≠ d.app.theme.cell
  scripts : story.arguments ≠ d.app.toolbar.scripts
  distinct : b.url ≠ b.address
  heard : g.heard (b.crew d.app.theme.cell story.arguments) =
    b.order d.app.theme.cell story.arguments

structure Tuned (d : Desk) (g : System) : Prop extends d.Tidy g where
  turns : ∀ {b : Bindings} {story : BoundStory}, g.world.bindings = some b →
    g.world.bound = some story → d.InTurn g b story
  closed : g.world.isOpen = false → g.world.bindings = none ∧ d.cycles = []
  apart : d.app.theme.cell ≠ d.app.toolbar.scripts
  kept : ∀ {name : String} {c : CellId}, d.kept.get? name = some c →
    c ≠ d.app.theme.cell ∧ c ≠ d.app.toolbar.scripts

theorem Tidy.congr (h : d.Tidy g) (parts : g.SameParts g') : d.Tidy g' where
  neat := h.neat.congr parts.listeners parts.effects
  loose := by
    intro l
    rw [Graph.pinsOf_congr parts.listeners]
    exact h.loose l
  theme := by
    rw [Graph.value_congr parts.cells]
    exact h.theme
  scripts := by
    rw [Graph.value_congr parts.cells]
    exact h.scripts

theorem InTurn.congr {b : Bindings} {story : BoundStory} (h : d.InTurn g b story)
    (parts : g.SameParts g') (status : g'.world.status = g.world.status) : d.InTurn g' b story where
  status := status.trans h.status
  arguments := by
    rw [Graph.value_congr parts.cells]
    exact h.arguments
  theme := h.theme
  scripts := h.scripts
  distinct := h.distinct
  heard := by
    rw [Graph.heard_congr (Graph.audience_congr parts.cells parts.listeners)]
    exact h.heard

/-- Nothing but the page, the session, the address and what is reported has changed. -/
theorem Tuned.congr (h : d.Tuned g) (parts : g.SameParts g')
    (bindings : g'.world.bindings = g.world.bindings) (bound : g'.world.bound = g.world.bound)
    (status : g'.world.status = g.world.status) (opened : g'.world.isOpen = g.world.isOpen) :
    d.Tuned g' where
  toTidy := h.toTidy.congr parts
  turns := by
    rw [bindings, bound]
    exact fun hb hs => (h.turns hb hs).congr parts status
  closed := by
    rw [opened, bindings]
    exact h.closed
  apart := h.apart
  kept := h.kept

theorem Tuned.reports (h : d.Tuned g) (hr : g.Reports g') : d.Tuned g' :=
  h.congr hr.parts (by rw [hr.world]) (by rw [hr.world]) (by rw [hr.world]) (by rw [hr.world])

theorem Tuned.onPage (h : d.Tuned g) (p : Page) :
    d.Tuned (g.withWorld { g.world with page := p }) :=
  h.congr ⟨rfl, rfl, rfl⟩ rfl rfl rfl rfl

/-- What a change of a cell makes of a preview with a bound story. New arguments are put into the
location; and then, or when the theme is new, the managed frame is led to the address. -/
def answer (d : Desk) (g : System) (story : BoundStory) (c : CellId) (v : Signal) : Preview :=
  let address := (d.route story g.world.page.origin).address (Function.update g.value c v)
  if c = story.arguments then
    ({ g.world with page := g.world.page.withArguments v.asArguments } : Preview).ledTo
      address g.world.page.origin
  else if c = d.app.theme.cell then g.world.ledTo address g.world.page.origin
  else g.world

structure Suits (d : Desk) (g : System) (c : CellId) (v : Signal) : Prop where
  theme : c = d.app.theme.cell → ∃ t, v = .theme t
  scripts : c = d.app.toolbar.scripts → ∃ on, v = .flag on
  arguments : ∀ {story : BoundStory}, g.world.bound = some story → c = story.arguments →
    ∃ args, v = .arguments args

/-- What a cell has been given has been answered: not at all if it was no change, and else as the
bound story asks for, apart from what watchers have seen and what was stored. -/
def Answered (d : Desk) (g : System) (c : CellId) (v : Signal) (g' : System) : Prop :=
  Signal.same (g.value c) v = true ∧ g.Reports g' ∨
    Signal.same (g.value c) v = false ∧ g'.value = Function.update g.value c v ∧
      (g.world.bound = none → g.world.Still g'.world) ∧
      ∀ story, g.world.bound = some story → (d.answer g story c v).Still g'.world

theorem Tidy.update {c : CellId} {v : Signal} (h : d.Tidy g) (hv : d.Suits g c v) (neat : g'.Neat)
    (loose : g'.Loose) (value : g'.value = Function.update g.value c v) : d.Tidy g' := by
  refine ⟨neat, loose, ?_, ?_⟩ <;> rw [value]
  · by_cases ht : c = d.app.theme.cell
    · subst ht
      rw [Function.update_self]
      exact hv.theme rfl
    · rw [Function.update_of_ne (Ne.symm ht)]
      exact h.theme
  · by_cases hs : c = d.app.toolbar.scripts
    · subst hs
      rw [Function.update_self]
      exact hv.scripts rfl
    · rw [Function.update_of_ne (Ne.symm hs)]
      exact h.scripts

theorem InTurn.update {b : Bindings} {story : BoundStory} {c : CellId} {v : Signal}
    (h : d.InTurn g b story) (hb : g.world.bound = some story) (hv : d.Suits g c v)
    (value : g'.value = Function.update g.value c v) (status : g'.world.status = g.world.status)
    (heard : g'.heard (b.crew d.app.theme.cell story.arguments) =
      b.order d.app.theme.cell story.arguments) :
    d.InTurn g' b story := by
  refine ⟨status.trans h.status, ?_, h.theme, h.scripts, h.distinct, heard⟩
  rw [value]
  by_cases ha : c = story.arguments
  · subst ha
    rw [Function.update_self]
    exact hv.arguments hb rfl
  · rw [Function.update_of_ne (Ne.symm ha)]
    exact h.arguments

section Put
variable {c : CellId} {v : Signal}

/-- Between two steps, what effects outside the bound story do does not matter, nor what listeners
do. -/
theorem noise {J : Preview → Prop} {crew : EffectId → Option (List CellId)}
    (hw : ∀ {e : EffectId} {duty : Duty}, g.Runs e duty → crew e = none → duty.IsWatch)
    (val : CellId → Signal) :
    App.calm.Noise g crew val v J Preview.Still where
  refl := .refl
  trans := fun _ _ _ => .trans
  acts := fun hr hc _ acts => (hw hr hc).still acts
  hears := fun _ hears => Duty.Hears.still hears

theorem Bound.watch_of_crew {b : Bindings} {story : BoundStory} (h : d.Bound φ g b story)
    {theme args : CellId} {e : EffectId} {duty : Duty} (hr : g.Runs e duty)
    (hc : b.crew theme args e = none) : duty.IsWatch := by
  rcases h.live hr with hw | rfl | rfl
  · exact hw
  · rw [b.crew_url] at hc
    cases hc
  · rw [Bindings.crew] at hc
    split at hc
    · cases hc
    · rw [if_pos rfl] at hc
      cases hc

theorem Bound.knows {b : Bindings} {story : BoundStory} (h : d.Bound φ g b story) :
    App.exact.Knows g (b.crew d.app.theme.cell story.arguments) := by
  intro e duty cs hr hc
  rw [Bindings.crew] at hc
  split at hc
  · rename_i he
    subst he
    obtain rfl := Option.some.inj hc
    obtain rfl := hr.unique h.url
    exact ⟨rfl, fun c => .rfl⟩
  · split at hc
    · rename_i he
      subst he
      obtain rfl := Option.some.inj hc
      obtain rfl := hr.unique h.address
      exact ⟨rfl, fun c => .rfl⟩
    · cases hc

/-- The effects of the bound story run in order, and nothing else matters. -/
theorem Bound.answered {b : Bindings} {story : BoundStory} (h : d.Bound φ g b story) {s : Preview}
    (plays : Plays (fun e w w' => ∃ duty, g.Runs e duty ∧
      App.calm.acts duty (Function.update g.value c v) w w') Preview.Still
      (b.order d.app.theme.cell story.arguments c) g.world s) : (d.answer g story c v).Still s := by
  have url {w w' : Preview} (hc : c = story.arguments) (act : ∃ duty, g.Runs b.url duty ∧
      App.calm.acts duty (Function.update g.value c v) w w') :
      w' = { w with page := w.page.withArguments v.asArguments } := by
    obtain ⟨duty, hr, acts⟩ := act
    obtain rfl := hr.unique h.url
    have same : Function.update g.value c v story.arguments = v := by rw [hc, Function.update_self]
    rw [← same]
    exact acts
  have address {w w' : Preview} (act : ∃ duty, g.Runs b.address duty ∧
      App.calm.acts duty (Function.update g.value c v) w w') :
      w' = w.ledTo ((d.route story g.world.page.origin).address (Function.update g.value c v))
        g.world.page.origin := by
    obtain ⟨duty, hr, acts⟩ := act
    obtain rfl := hr.unique h.address
    exact acts
  unfold answer
  by_cases ha : c = story.arguments
  · rw [if_pos ha]
    rw [Bindings.order, if_pos ha] at plays
    obtain - | ⟨first, act, rest⟩ := plays
    obtain - | ⟨second, act', rest⟩ := rest
    obtain ⟨last⟩ | - := rest
    rw [url ha act] at second
    rw [address act'] at last
    exact (((first.withArguments _).trans second).ledTo _ _).trans last
  · rw [if_neg ha]
    rw [Bindings.order, if_neg ha] at plays
    by_cases ht : c = d.app.theme.cell
    · rw [if_pos ht]
      rw [if_pos ht] at plays
      obtain - | ⟨first, act, rest⟩ := plays
      obtain ⟨last⟩ | - := rest
      rw [address act] at last
      exact (first.ledTo _ _).trans last
    · rw [if_neg ht]
      rw [if_neg ht] at plays
      obtain ⟨still⟩ | - := plays
      exact still

/-- A write makes the effects of a crew that hear of it run in order, if all others are watchers. -/
theorem Tidy.put (t : d.Tidy g) (h : d.Sound φ g) (hc : c < g.cells.length) (hv : d.Suits g c v)
    {crew : EffectId → Option (List CellId)} (knows : App.exact.Knows g crew)
    (watch : ∀ {e : EffectId} {duty : Duty}, g.Runs e duty → crew e = none → duty.IsWatch)
    (distinct : (g.heard crew c).Nodup) : Action.Done (Action.put c v) g fun _ g' =>
      d.Sound φ g' ∧ g.world.Follows g'.world ∧ (Signal.same (g.value c) v = true ∧ g' = g ∨
        Signal.same (g.value c) v = false ∧ g'.value = Function.update g.value c v ∧ d.Tidy g' ∧
          g'.heard crew = (g.heard crew c).foldl (Graph.turn crew) (g.heard crew) ∧
          Plays (fun e w w' => ∃ duty, g.Runs e duty ∧
            App.calm.acts duty (Function.update g.value c v) w w')
            Preview.Still (g.heard crew c) g.world g'.world) := by
  have kept : App.calm.Kept (Function.update g.value c v) g.Live v
      g.world.Follows g.world.Follows :=
    ⟨fun _ _ hs acts => hs.trans (Duty.Acts.follows acts),
      fun _ hs hears => hs.trans (Duty.Hears.follows hears)⟩
  have fit (s : Preview) (hs : g.world.Follows s) : App.calm.fit g.cells.length s := by
    intro story hb
    rw [hs.bound] at hb
    exact h.fits story hb
  refine ((h.put hc).and (App.calm.write_turns App.exact 999 h.rigged.wired t.neat t.loose
    hc fit kept (.refl _) knows (noise watch _) distinct)).imp ?_
  rintro _ g' ⟨⟨sound, follows, value⟩, turns⟩
  refine ⟨sound, follows, ?_⟩
  rcases turns with same | ⟨differ, neat, loose, heard, plays⟩
  · exact .inl same
  · rcases value with ⟨same, -⟩ | ⟨-, value⟩
    · exact absurd (same.symm.trans differ) (by simp)
    · exact .inr ⟨differ, value, t.update hv neat loose value, heard, plays⟩

/-- A write leaves the effects of the bound story in order, and they answer it. -/
theorem Tuned.put (t : d.Tuned g) (h : d.Sound φ g) (hc : c < g.cells.length) (hv : d.Suits g c v) :
    Action.Done (Action.put c v) g fun _ g' =>
      d.Sound φ g' ∧ g.world.Follows g'.world ∧ d.Tuned g' ∧ d.Answered g c v g' := by
  rcases h.standing with free | ⟨b, story, bound⟩
  · have unheard : g.heard (fun _ => none) c = [] := by simp [Graph.heard]
    have knows : App.exact.Knows g fun _ => none := fun _ hc => by cases hc
    refine (t.toTidy.put h hc hv knows (fun hr _ => free.live hr)
      (by rw [unheard]; exact .nil)).imp ?_
    rintro _ g' ⟨sound, follows, ⟨same, rfl⟩ | ⟨differ, value, tidy, -, plays⟩⟩
    · exact ⟨sound, follows, t, .inl ⟨same, .refl _⟩⟩
    rw [unheard] at plays
    obtain ⟨still⟩ | - := plays
    refine ⟨sound, follows, ⟨tidy, fun hb => ?_, ?_, t.apart, t.kept⟩,
      .inr ⟨differ, value, fun _ => still, fun story hs => ?_⟩⟩
    · rw [follows.bindings, free.bindings] at hb
      cases hb
    · rw [follows.isOpen, follows.bindings]
      exact t.closed
    · rw [free.bound] at hs
      cases hs
  · have inTurn := t.turns bound.bindings bound.bound
    have nodup : (g.heard (b.crew d.app.theme.cell story.arguments) c).Nodup := by
      rw [inTurn.heard]
      exact b.order_nodup inTurn.distinct c
    refine (t.toTidy.put h hc hv bound.knows bound.watch_of_crew nodup).imp ?_
    rintro _ g' ⟨sound, follows, ⟨same, rfl⟩ | ⟨differ, value, tidy, heard, plays⟩⟩
    · exact ⟨sound, follows, t, .inl ⟨same, .refl _⟩⟩
    rw [inTurn.heard] at heard plays
    refine ⟨sound, follows, ⟨tidy, fun hb hs => ?_, ?_, t.apart, t.kept⟩,
      .inr ⟨differ, value, fun hs => ?_, fun story' hs => ?_⟩⟩
    · rw [follows.bindings, bound.bindings] at hb
      rw [follows.bound, bound.bound] at hs
      obtain rfl := Option.some.inj hb
      obtain rfl := Option.some.inj hs
      exact inTurn.update bound.bound hv value follows.status
        (heard.trans (b.order_turns inTurn.distinct inTurn.theme c))
    · rw [follows.isOpen, follows.bindings]
      exact t.closed
    · rw [bound.bound] at hs
      cases hs
    · rw [bound.bound] at hs
      obtain rfl := Option.some.inj hs
      exact bound.answered plays

end Put

end App.Desk
end StoryPreview
