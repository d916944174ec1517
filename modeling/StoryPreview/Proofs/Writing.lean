import StoryPreview.Proofs.Standing
/-!
Writes of a preview. When a cell changes, the effects of the bound story that follow it run and see
the new value, and what they keep up holds again when the write comes to an end.
-/
namespace StoryPreview
open Reactive Program

abbrev App.doer : Doer Duty Signal Preview := Reactive.perform App.meaning depthLimit

/-- An action of a preview comes to an end, with a value and a state that satisfy `Q`. -/
abbrev Action.Done {α : Type} (act : Action α) (g : System) (Q : α → System → Prop) : Prop :=
  act.Ends App.meaning.same App.doer g Q

namespace App.Desk
variable {φ : Aspect → Prop} {d : Desk} {g : System} {c : CellId} {v : Signal}

/-- Between two steps the duties that are live are watches and those of the bound story. -/
theorem Bound.live_cases {b : Bindings} {story : BoundStory} (h : d.Bound φ g b story) {duty : Duty}
    (hd : g.Live duty) : duty.IsWatch ∨ duty = .followUrl story.arguments ∨
      duty = .followAddress (d.route story g.world.page.origin) := by
  obtain ⟨e, hr⟩ := hd
  rcases h.live hr with hw | rfl | rfl
  · exact .inl hw
  · exact .inr (.inl (hr.unique h.url))
  · exact .inr (.inr (hr.unique h.address))

/-- A location that has arguments keeps them while a change is announced. -/
theorem Bound.kept_located {b : Bindings} {story : BoundStory} (h : d.Bound φ g b story)
    (ha : d.Attended φ g.world) (val : CellId → Signal) :
    App.calm.Kept val g.Live v g.world.Follows fun s =>
      φ .location → s.page.Has (val story.arguments).asArguments where
  acts := by
    intro duty s s' hd hs hp acts hl
    rcases h.live_cases hd with hw | rfl | rfl
    · exact (hp hl).congr (hw.location acts)
    · obtain rfl : s' = { s with page := s.page.withArguments (val story.arguments).asArguments } :=
        acts
      exact ((ha.location hl).reaches hs.page).withArguments _
    · obtain rfl : s' = s.ledTo _ _ := acts
      exact (hp hl).congr Preview.ledTo_location
  hears := fun _ hp hears hl => (hp hl).congr hears.location

structure AtAddress (φ : Aspect → Prop) (a : Address) (s : Preview) : Prop where
  current : s.address = some a
  framed : φ .frames → ∀ f, s.session.managed = some f → s.page.Leads f a

theorem AtAddress.congr {a : Address} {s s' : Preview} (h : AtAddress φ a s) (hf : s.Follows s')
    (hs : ∀ f, s'.page.sourceOf f = s.page.sourceOf f ∧ s'.address = s.address) :
    AtAddress φ a s' where
  current := by rw [(hs 0).2, h.current]
  framed := by
    intro hl f hm
    rw [hf.session] at hm
    exact (h.framed hl f hm).congr (hs f).1 hf.page.setting

/-- An effect that leads the frame to an address brings it there. -/
theorem Attended.atAddress {s : Preview} (h : d.Attended φ s) (a : Address) {origin : String}
    (ho : origin = s.page.origin) : AtAddress φ a (s.ledTo a origin) where
  current := Preview.ledTo_address
  framed := by
    intro hl f hm
    obtain ⟨framed, managed⟩ := h.frames hl
    have session : (s.ledTo a origin).session = s.session := by
      unfold Preview.ledTo
      split <;> rfl
    rw [session] at hm
    subst ho
    exact Preview.leads_ledTo framed.allowed hm (managed f hm)

theorem Bound.kept_atAddress {b : Bindings} {story : BoundStory} (h : d.Bound φ g b story)
    (ha : d.Attended φ g.world) (val : CellId → Signal) :
    App.calm.Kept val g.Live v g.world.Follows
      (AtAddress φ ((d.route story g.world.page.origin).address val)) where
  acts := by
    intro duty s s' hd hs hp acts
    have follows : s.Follows s' := Duty.Acts.follows acts
    rcases h.live_cases hd with hw | rfl | rfl
    · exact hp.congr follows fun f => hw.sourceOf acts f
    · refine hp.congr follows fun f => ?_
      obtain rfl : s' = { s with page := s.page.withArguments (val story.arguments).asArguments } :=
        acts
      exact ⟨Page.withArguments_frames _ _ f, rfl⟩
    · obtain rfl : s' = s.ledTo _ _ := acts
      exact (ha.follows hs).atAddress _ hs.page.setting.origin.symm
  hears := fun _ hp hears => hp.congr hears.follows fun f => hears.sourceOf f

theorem Free.kept_address (h : Free g) (val : CellId → Signal) :
    App.calm.Kept val g.Live v g.world.Follows fun s => s.address = none where
  acts := by
    intro duty s s' hd hs hp acts
    obtain ⟨e, hr⟩ := hd
    exact ((h.live hr).sourceOf acts 0).2.trans hp
  hears := fun _ hp hears => (Duty.Hears.sourceOf hears 0).2.trans hp

/-- A write leaves a sound desk sound. -/
theorem Sound.put (h : d.Sound φ g) (hc : c < g.cells.length) :
    Action.Done (Action.put c v) g fun _ g' => d.Sound φ g' ∧ g.world.Follows g'.world ∧
      (Signal.same (g.value c) v = true ∧ g' = g ∨
        Signal.same (g.value c) v = false ∧ g'.value = Function.update g.value c v) := by
  have kept : App.calm.Kept (Function.update g.value c v) g.Live v
      g.world.Follows g.world.Follows :=
    ⟨fun _ _ hs acts => hs.trans (Duty.Acts.follows acts),
      fun _ hs hears => hs.trans (Duty.Hears.follows hears)⟩
  refine (App.calm.write_ends 999 h.rigged.wired hc (fun s hs => ?_) kept (.refl _)).imp
    fun _ g' post => ?_
  · intro story hb
    rw [hs.bound] at hb
    exact h.fits story hb
  rcases post with ⟨same, rfl⟩ | ⟨differ, written, follows, settled⟩
  · exact ⟨h, .refl _, .inl ⟨same, rfl⟩⟩
  refine ⟨⟨h.rigged.kin written.wired written.kin written.length, h.attended.follows follows, ?_⟩,
    follows, .inr ⟨differ, written.value⟩⟩
  have session := follows.session
  have origin := follows.page.setting.origin
  rcases h.standing with free | ⟨b, story, bound⟩
  · left
    exact ⟨by rw [follows.bindings, free.bindings], by rw [follows.bound, free.bound],
      settled (free.kept_address _) (.inl free.address), fun hr =>
        free.live (written.kin.runs_iff.1 hr)⟩
  · right
    have located := settled (bound.kept_located h.attended (Function.update g.value c v)) ?_
    have at_address := settled (bound.kept_atAddress h.attended (Function.update g.value c v)) ?_
    · refine ⟨b, story, by rw [follows.bindings, bound.bindings],
        by rw [follows.bound, bound.bound], written.kin.runs_iff.2 bound.url, ?_, fun hr =>
          bound.live (written.kin.runs_iff.1 hr), ?_, ?_, ?_, ?_⟩
      · rw [origin]
        exact written.kin.runs_iff.2 bound.address
      · rw [origin, written.value]
        exact at_address.current
      · rw [written.value]
        exact located
      · rw [origin, written.value]
        exact at_address.framed
      · rw [session]
        exact bound.managed
    · -- The current address holds if neither the theme nor the arguments change, and else by the
    -- second effect.
      by_cases hm : c ∈ [d.app.theme.cell, story.arguments]
      · refine .inr ⟨b.address, _, bound.address, hm, fun s s' hs acts => ?_⟩
        obtain rfl : s' = s.ledTo _ _ := acts
        exact (h.attended.follows hs).atAddress _ hs.page.setting.origin.symm
      · simp only [List.mem_cons, List.not_mem_nil, or_false, not_or] at hm
        have same : (d.route story g.world.page.origin).address (Function.update g.value c v) =
            (d.route story g.world.page.origin).address g.value := by
          simp only [Route.address, route, Function.update_of_ne (Ne.symm hm.1),
            Function.update_of_ne (Ne.symm hm.2)]
        rw [same]
        exact .inl ⟨bound.current, bound.framed⟩
    · by_cases hm : c = story.arguments
      · refine .inr ⟨b.url, _, bound.url, by rw [hm]; exact List.mem_singleton_self _,
          fun s s' hs acts hl => ?_⟩
        obtain rfl : s' = { s with page := s.page.withArguments _ } := acts
        exact ((h.attended.location hl).reaches hs.page).withArguments _
      · rw [Function.update_of_ne (Ne.symm hm)]
        exact .inl bound.located

end App.Desk
end StoryPreview
