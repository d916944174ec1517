import StoryPreview.Proofs.Tending
/-!
Which frame is managed. After any run it is the one that the latest cycle that found a frame has
found, unless it was given up since: a cycle that finds none leaves the frame of an earlier cycle
managed.
-/
namespace StoryPreview
open Reactive Program
namespace App.Desk
variable {d : Desk} {g : System}

def frameId (d : Desk) : String := d.app.controller.settings.frameId

theorem cycle_yields (d : Desk) {u : Use} (hu : u = .visit ∨ ∃ name, u = .start name)
    (s : Preview) :
    (d.use u).Yields Preview.Tends (fun r s' => s.Turns (s.registry.cycled d.frameId) s' ∧
      (s.registry.found? d.frameId = none →
        r.1 = .ended (.failed (.frameMissing d.frameId)))) s := by
  rcases hu with rfl | ⟨name, rfl⟩
  · simp only [use, yields_bind]
    refine (Controller.start_yields _ s).imp fun p s' registers => ?_
    have missing := registers.missing
    split
    · refine ⟨registers.turns, fun none => ?_⟩
      cases missing none
    · exact ⟨registers.turns, fun none =>
        congrArg Reply.ended (Controller.Progress.ended.inj (missing none))⟩
  · simp only [use, yields_bind]
    refine (Controller.start_yields _ s).imp fun p s' registers => ⟨registers.turns, fun none => ?_⟩
    rw [registers.missing none]
    rfl

theorem use_yields (d : Desk) (u : Use) {s : Preview} (hs : s.isOpen = true) :
    (d.use u).Yields Preview.Tends (fun _ => s.Turns (s.registry.after d.frameId (.use u))) s := by
  have opened : s.registry.isOpen = true := hs
  have then_pure {α β : Type} {act : Action α} (h : act.Tends) (f : α → β) :
      (do return f (← act)).Tends :=
    h.bind fun a => .pure _
  have still : s.Tends s := .refl s
  cases u with
  | visit =>
    rw [Registry.after, if_pos opened]
    exact (d.cycle_yields (.inl rfl) s).imp fun _ _ => And.left
  | start name =>
    rw [Registry.after, if_pos opened]
    exact (d.cycle_yields (.inr ⟨name, rfl⟩) s).imp fun _ _ => And.left
  | unmanage =>
    simp only [use, Controller.manage, yields_bind, Action.yields_state, Action.yields_sayAll,
      Action.yields_update, yields_pure, Registry.after, if_pos opened]
    exact ⟨rfl, .of_eq rfl⟩
  | edit key input =>
    refine then_pure (fun s => ?_) _ s
    simp only [editBound, yields_bind, Action.yields_state]
    split
    · exact .refl s
    · exact ((edit_tends _ key input).bind fun _ => .pure _) s
  | reset =>
    refine then_pure (fun s => ?_) _ s
    simp only [resetBound, yields_bind, Action.yields_state]
    split
    · exact .refl s
    · exact ((resetArguments_tends _).bind fun _ => .pure _) s
  | toggleTheme => exact then_pure (toggleTheme_tends _) _ s
  | toggleScripts => exact then_pure (Toolbar.toggleScripts_tends _ Controller.reload_tends) _ s
  | reload => exact then_pure Controller.reload_tends _ s
  | dispose => exact (Controller.dispose_tends.bind fun _ => .pure _) s
  | controls =>
    refine then_pure (fun s => ?_) _ s
    simp only [controls, yields_bind, Action.yields_state]
    split
    · exact .refl s
    · exact fun _ => .refl s
  | labels => exact fun _ _ => still
  | settings => exact still
  | bound =>
    simp only [use, yields_bind, Action.yields_state]
    split
    · exact still
    · exact fun _ => still
  | keep name =>
    simp only [use, yields_bind, Action.yields_state]
    split <;> exact still
  | watch name view =>
    simp only [use, watch, yields_bind, yields_spawn, yields_done]
    intro e s' spawned
    split <;> exact spawned

/-- Whatever a step does, it leaves the preview with the registry that follows from the step, and
calls for no other frame than the one that is managed then. -/
theorem step_yields (d : Desk) (x : Step) (s : Preview) :
    (d.step x).Yields Preview.Tends (fun _ => s.Turns (s.registry.after d.frameId x)) s := by
  have still : s.Tends s := .refl s
  cases x with
  | use u =>
    simp only [step, yields_bind, Action.yields_state]
    split
    · rename_i opened
      exact d.use_yields u opened
    · rename_i closed
      have same : s.registry.after d.frameId (.use u) = s.registry := by
        cases u <;> first | rfl | exact if_neg closed
      rw [same]
      exact still
  | page c =>
    simp only [step, Action.changePage, yields_bind, Action.yields_onPage, yields_pure]
    refine ⟨?_, .of_eq (Page.change_deeds s.page c)⟩
    cases c <;> rfl
  | resume name =>
    simp only [step]
    split
    · exact still
    · exact ((Controller.resume_tends _ _).bind fun p => .pure _) s
  | setTheme t => exact ((Action.Tends.put _ _).bind fun _ => .pure _) s
  | setArguments name args =>
    simp only [step]
    split
    · exact still
    · simp only [yields_bind, Action.yields_put, yields_inspect, yields_pure]
      exact fun s' put x => put
  | unwatch name =>
    simp only [step]
    split <;> exact still
  | close =>
    simp only [step, yields_bind, Action.yields_state]
    split
    · simp only [App.close, Stored.close, yields_bind, Action.yields_update, yields_release,
        yields_done, yields_pure]
      refine (Controller.unbind_yields _).imp fun _ s' unbound => ?_
      rw [unbound]
      exact ⟨rfl, .of_eq rfl⟩
    · rename_i closed
      have same : s.registry.after d.frameId .close = s.registry := by
        simp [Registry.after, Preview.registry, closed]
      exact ⟨same.symm, .of_eq rfl⟩

structure Heeds (d : Desk) (g : System) (x : Step) (reply : Reply) (g' : System) : Prop where
  registry : g'.world.registry = g.world.registry.after d.frameId x
  /-- Only the frame that is managed afterwards is called for. -/
  only : g.world.page.Only g'.world.session.managed g'.world.page
  /-- A cycle leaves the frame managed that it finds, unless it finds none and one is managed. -/
  cycle : x = .use .visit ∨ (∃ name, x = .use (.start name)) → g.world.isOpen = true →
    (g'.world.session.managed = g.world.registry.found? d.frameId ↔
      g.world.registry.found? d.frameId ≠ none ∨ g.world.session.managed = none) ∧
    (g.world.registry.found? d.frameId = none → reply = .ended (.failed (.frameMissing d.frameId)))
  /-- Without a managed frame, scripts are neither permitted nor forbidden. -/
  unmanaged : x = .use .toggleScripts → g.world.isOpen = true → g.world.session.managed = none →
    reply = .attempt (.ok false) ∧ g'.world = g.world ∧ g'.cells = g.cells

theorem toggleScripts_unmanaged (ho : g.world.isOpen = true) (hm : g.world.session.managed = none) :
    (d.step (.use .toggleScripts)).Done g fun r g' =>
      r.1 = .attempt (.ok false) ∧ g'.world = g.world ∧ g'.cells = g.cells := by
  simp only [step, use, toggleScripts, Toolbar.toggleScripts, Action.Done, ends_bind,
    Action.ends_state, if_pos ho, hm, Action.ends_say, ends_pure]
  exact ⟨trivial, rfl, rfl⟩

theorem heeds_of_step {x : Step} {reply : Reply} {d' : Desk} {g' : System}
    (ran : App.perform (d.step x) g = some ((reply, d'), g')) : d.Heeds g x reply g' := by
  have turns := abides.exec (d.step_yields x g.world) ran
  have managed : g'.world.session.managed = _ := congrArg Registry.managed turns.registry
  refine ⟨turns.registry, managed ▸ turns.only, fun cycle opened => ?_, ?_⟩
  · obtain ⟨u, rfl, hu⟩ : ∃ u, x = .use u ∧ (u = .visit ∨ ∃ name, u = .start name) := by
      rcases cycle with rfl | ⟨name, rfl⟩
      · exact ⟨_, rfl, .inl rfl⟩
      · exact ⟨_, rfl, .inr ⟨name, rfl⟩⟩
    have cycles : (d.step (.use u)).Yields Preview.Tends (fun r s' =>
        g.world.Turns (g.world.registry.cycled d.frameId) s' ∧
          (g.world.registry.found? d.frameId = none →
            r.1 = .ended (.failed (.frameMissing d.frameId)))) g.world := by
      simp only [step, yields_bind, Action.yields_state, if_pos opened]
      exact d.cycle_yields hu g.world
    obtain ⟨cycled, missing⟩ := abides.exec cycles ran
    have managed : g'.world.session.managed = (g.world.registry.cycled d.frameId).managed :=
      congrArg Registry.managed cycled.registry
    refine ⟨?_, missing⟩
    rw [managed]
    exact Registry.cycled_managed_iff
  · rintro rfl opened unmanaged
    exact (toggleScripts_unmanaged opened unmanaged).of_run ran

/-- After a run, the registry is what the steps make of it one after the other. -/
theorem Sound.run_registry (h : d.Sound (fun _ => False) g) (steps : List Step) :
    (d.run steps).Done g fun r g' =>
    r.2.Sound (fun _ => False) g' ∧ r.2.app = d.app ∧
      g'.world.registry = steps.foldl (Registry.after d.frameId) g.world.registry := by
  induction steps generalizing d g with
  | nil => exact done_run_nil.2 ⟨h, rfl, rfl⟩
  | cons x steps ih =>
    obtain ⟨⟨reply, d₁⟩, g₁, ran, sound, onward⟩ := h.step x
    have heeds := heeds_of_step ran
    refine done_run_cons.2 ⟨(reply, d₁), g₁, ran, (ih (sound.mono fun _ => False.elim)).imp ?_⟩
    rintro r g' ⟨sound', app, registry⟩
    have same : d₁.frameId = d.frameId := by rw [frameId, frameId, onward.app]
    refine ⟨sound', app.trans onward.app, ?_⟩
    rw [registry, same, heeds.registry]
    rfl

theorem opened_tends (s : Settings) : (opened s).Tends := by
  have read (key : String) : (Stored.read? .theme key).Tends := by
    intro s
    have loaded : s.Tends { s with page := (s.page.load key).2 } := ⟨rfl, .of_eq rfl⟩
    simp only [Stored.read?, Stored.readWith?, yields_bind, Action.yields_onPage]
    split
    · exact loaded
    · exact loaded
    · split <;> exact loaded
  have stored : (Stored.create .theme s.themeStorageKey (.theme s.defaultTheme)).Tends :=
    (read _).bind fun v => (Stored.write_tends _ _).bind fun _ s c l => Preview.Tends.refl s
  have toolbar (theme : CellId) : (Toolbar.create theme).Tends := fun s c => Preview.Tends.refl s
  exact (stored.bind fun theme => (toolbar theme.cell).bind fun t => .pure _).bind fun app =>
    .pure _

/-- After any run, the frame is managed that the latest cycle that found one has found, unless it
was given up; and of any further step: a cycle makes the frame managed that it finds, a cycle that
finds none leaves the one of an earlier cycle managed, no other frame than the managed one is called
for, and without one the scripts stay as they are. -/
theorem managed_frame_of_life (s : Settings) (p : Page) (steps : List Step) (x : Step) :
    ∃ replies d g, App.perform (life s steps) p.blank = some ((replies, d), g) ∧
    d.frameId = s.frameId ∧
      g.world.registry = steps.foldl (Registry.after s.frameId) ⟨p.frameIds, true, none⟩ ∧
      ∃ reply d' g', App.perform (d.step x) g = some ((reply, d'), g') ∧ d.Heeds g x reply g' := by
  have fresh : p.Fresh fun _ => False := ⟨False.elim, False.elim⟩
  obtain ⟨d₀, g₀, opens, sound₀, settings, -⟩ := opened_sound fresh s
  have registry₀ : g₀.world.registry = ⟨p.frameIds, true, none⟩ :=
    (abides.exec (opened_tends s _) opens).registry
  have frameId₀ : d₀.frameId = s.frameId := by rw [frameId, settings]
  obtain ⟨⟨replies, d⟩, g, run, sound, app, registry⟩ := sound₀.run_registry steps
  rw [frameId₀, registry₀] at registry
  obtain ⟨⟨reply, d'⟩, g', ran, -⟩ := sound.step x
  obtain ⟨_, _, lived, rfl, rfl⟩ : (life s steps).Done p.blank fun r k => r = (replies, d) ∧
      k = g :=
    done_life.2 ⟨d₀, g₀, opens, (replies, d), g, run, rfl, rfl⟩
  exact ⟨replies, d, _, lived, by rw [frameId, app, ← frameId, frameId₀], registry, reply, d', g',
    ran, heeds_of_step ran⟩

end App.Desk
end StoryPreview
