import StoryPreview.Proofs.Reactive.Yielding
import StoryPreview.Proofs.Runs
/-!
Frames and the registry. A preview calls for no other frame than the one that is managed, and which
one that is changes only when a cycle registers the frame that it finds, or when the managed frame
is given up.
-/
namespace StoryPreview
open Reactive Program

def Deed.frame? : Deed → Option FrameId
  | .called (.setSrc f _) _ | .called (.setSrcdoc f _) _ | .called (.setAttribute f _ _) _ => some f
  | _ => none

@[ext] structure Registry where
  frameIds : Entries FrameId
  isOpen : Bool
  managed : Option FrameId

def Preview.registry (s : Preview) : Registry := ⟨s.page.frameIds, s.isOpen, s.session.managed⟩

namespace Registry

def found? (frameId : String) (r : Registry) : Option FrameId := r.frameIds.get? frameId

def cycled (frameId : String) (r : Registry) : Registry :=
  { r with managed := (r.found? frameId).or r.managed }

def after (frameId : String) (r : Registry) : App.Step → Registry
  | .use .visit | .use (.start _) => if r.isOpen then r.cycled frameId else r
  | .use .unmanage => if r.isOpen then { r with managed := none } else r
  | .page (.placeFrame id frame) => { r with frameIds := r.frameIds.put id frame }
  | .close => { r with isOpen := false }
  | _ => r

/-- After a cycle the frame that it found is managed, and no other, unless it found none where one
was managed before. -/
theorem cycled_managed_iff {frameId : String} {r : Registry} :
    (r.cycled frameId).managed = r.found? frameId ↔ r.found? frameId ≠ none ∨ r.managed = none := by
  rw [cycled]
  cases r.found? frameId <;> simp

end Registry

def Page.Only (frame : Option FrameId) (p p' : Page) : Prop :=
  ∃ ds, p'.deeds = ds ++ p.deeds ∧ ∀ d ∈ ds, ∀ f, d.frame? = some f → frame = some f

namespace Page
variable {p p' p'' : Page} {frame : Option FrameId}

theorem Only.of_eq (h : p'.deeds = p.deeds) : p.Only frame p' := ⟨[], h, nofun⟩

theorem Only.trans (h : p.Only frame p') (h' : p'.Only frame p'') : p.Only frame p'' := by
  obtain ⟨ds, hd, only⟩ := h
  obtain ⟨ds', hd', only'⟩ := h'
  refine ⟨ds' ++ ds, by rw [hd', hd, List.append_assoc], fun d hm => ?_⟩
  rcases List.mem_append.1 hm with hm | hm
  · exact only' d hm
  · exact only d hm

theorem Only.cons {d : Deed} (h : p'.deeds = d :: p.deeds)
    (hd : ∀ f, d.frame? = some f → frame = some f) : p.Only frame p' :=
  ⟨[d], h, fun _ hm => by rwa [List.mem_singleton.1 hm]⟩

theorem call_deeds (p : Page) (c : Call) :
    ∃ refused, (p.call c).2.deeds = .called c refused :: p.deeds := by
  rcases call_cases p c with ⟨he, -⟩ | ⟨he, -⟩
  · refine ⟨false, ?_⟩
    rw [he]
    cases c with
    | setClass s name on => cases s <;> rfl
    | _ => rfl
  · exact ⟨true, by rw [he]; rfl⟩

/-- A call for the frame itself, or for none. -/
theorem Only.call {c : Call}
    (hc : ∀ refused f, (Deed.called c refused).frame? = some f → frame = some f) :
    p.Only frame (p.call c).2 := by
  obtain ⟨refused, hd⟩ := call_deeds p c
  exact .cons hd (hc refused)

theorem Only.store (key text : String) : p.Only frame (p.store key text).2 := by
  unfold Page.store
  split <;> exact .cons rfl nofun

end Page

/-- A preview comes to a registry, and calls for no other frame than the one that is managed
then. -/
structure Preview.Turns (s : Preview) (r : Registry) (s' : Preview) : Prop where
  registry : s'.registry = r
  only : s.page.Only r.managed s'.page

abbrev Preview.Tends (s s' : Preview) : Prop := s.Turns s.registry s'

namespace Preview
variable {s s' s'' : Preview} {r : Registry}

theorem Tends.refl (s : Preview) : s.Tends s := ⟨rfl, .of_eq rfl⟩

theorem Turns.trans (h : s.Turns r s') (h' : s'.Tends s'') : s.Turns r s'' where
  registry := h'.registry.trans h.registry
  only := h.only.trans (h.registry ▸ h'.only)

/-- What the page has recorded already does not matter. -/
theorem Turns.before (h : s'.Turns r s'') (page : s'.page.deeds = s.page.deeds) :
    s.Turns r s'' := by
  obtain ⟨ds, hd, only⟩ := h.only
  exact ⟨h.registry, ds, hd.trans (by rw [page]), only⟩

/-- Nothing is done with the page. -/
theorem Tends.aside (registry : s'.registry = s.registry) (page : s'.page = s.page) : s.Tends s' :=
  ⟨registry, .of_eq (by rw [page])⟩

theorem Tends.call {c : Call}
    (hc : ∀ refused f, (Deed.called c refused).frame? = some f → s.session.managed = some f) :
    s.Tends { s with page := (s.page.call c).2 } where
  registry := by
    have frameIds := (Page.SameSetting.call s.page c).frameIds
    simp only [Preview.registry, frameIds]
  only := .call hc

theorem Tends.store (s : Preview) (key text : String) :
    s.Tends { s with page := (s.page.store key text).2 } where
  registry := by
    have frameIds := (Page.SameSetting.store s.page key text).frameIds
    simp only [Preview.registry, frameIds]
  only := .store key text

end Preview

namespace Action
variable {V α β : Type} {rely : Preview → Preview → Prop} {Q : Unit → Preview → Prop} {s : Preview}

section Rules

@[simp] theorem yields_state {R : Preview → Preview → Prop} : (state (V := V)).Yields rely R s ↔
    R s s := .rfl

@[simp] theorem yields_update {f : Preview → Preview} : (update (V := V) f).Yields rely Q s ↔
    Q () (f s) := .rfl

@[simp] theorem yields_say {level : Level} {topic : Topic} {text : String}
    {details : List (String × String)} :
    (say (V := V) level topic text details).Yields rely Q s ↔ Q () s := .rfl

@[simp] theorem yields_sayAll {ns : List Note} : (sayAll (V := V) ns).Yields rely Q s ↔ Q () s := by
  induction ns with
  | nil => rfl
  | cons n ns ih => exact ih

@[simp] theorem yields_onPage {f : Page → α × Page} {R : α → Preview → Prop} :
    (onPage (V := V) f).Yields rely R s ↔ R (f s.page).1 { s with page := (f s.page).2 } := .rfl

@[simp] theorem yields_call {c : Call} {R : Except Problem Unit → Preview → Prop} :
    (call (V := V) c).Yields rely R s ↔ R (s.page.call c).1 { s with page := (s.page.call c).2 } :=
  .rfl

@[simp] theorem yields_note {d : Deed} : (note (V := V) d).Yields rely Q s ↔
    Q () { s with page := s.page.note d } := .rfl

@[simp] theorem yields_follow {c : CellId} {R : V → Preview → Prop} :
    (follow c).Yields rely R s ↔ ∀ v, R v s := .rfl

@[simp] theorem yields_look {c : CellId} {R : V → Preview → Prop} :
    (look c).Yields rely R s ↔ ∀ x : CellView V, R x.value s := .rfl

@[simp] theorem yields_put {c : CellId} {v : V} : (put c v).Yields rely Q s ↔ ∀ s', rely s s' →
    Q () s' := .rfl

@[simp] theorem yields_inSpan {span : Span} {act : ActionOver V α} {R : α → Preview → Prop} :
    (inSpan span act).Yields rely R s ↔ act.Yields rely R s := by
  have bind : act.bind (fun a => .within none (.done a)) = act >>= fun a =>
    .within none (.done a) := rfl
  change (act.bind _).Yields rely R s ↔ _
  rw [bind, yields_bind]
  rfl

end Rules

/-- An action that leaves the registry as it is, and calls for no other frame than the managed
one. -/
def Tends (act : Action α) : Prop := ∀ s, act.Yields Preview.Tends (fun _ => s.Tends) s

theorem Tends.bind {act : Action α} {f : α → Action β} (h : act.Tends) (hf : ∀ a, (f a).Tends) :
    (act >>= f).Tends :=
  fun s => yields_bind.2 ((h s).imp fun a s' first => (hf a s').imp fun _ _ => first.trans)

theorem Tends.pure (a : α) : (pure a : Action α).Tends := Preview.Tends.refl

theorem Tends.say (level : Level) (topic : Topic) (text : String)
    (details : List (String × String)) : Tends (say level topic text details) := Preview.Tends.refl

theorem Tends.update {f : Preview → Preview} (registry : ∀ s, (f s).registry = s.registry)
    (page : ∀ s, (f s).page = s.page) :
    Tends (update f) := fun s => .aside (registry s) (page s)

theorem Tends.put (c : CellId) (v : Signal) : Tends (put c v) := fun _ _ => id

end Action

/-! ### Effects, and what they are for -/

theorem Stored.write_tends (key : String) (v : Signal) : (Stored.write key v).Tends := by
  intro s
  simp only [Stored.write, Stored.writeWith, yields_bind, Action.yields_onPage]
  split <;> exact .store s key _

theorem UrlSync.follow_tends (arguments : CellId) : (UrlSync.follow arguments).Tends := by
  intro s
  simp only [UrlSync.follow, yields_bind, Action.yields_state, Action.yields_follow]
  intro v
  split
  · exact .refl s
  · simp only [yields_bind, Action.yields_call]
    split <;> exact .call nofun

namespace Controller

theorem lead_yields {frame : FrameId} (address : Address) (origin : String) {s : Preview}
    (hf : s.session.managed = some frame) :
    (lead frame address origin).Yields Preview.Tends (fun _ => s.Tends) s := by
  have assigned : s.Tends { s with page := (s.page.call (.setSrc frame address.text)).2 } := .call
    fun _ _ hd => hf.trans hd
  simp only [lead, yields_bind, Action.yields_state]
  split
  · exact .refl s
  · split <;> simp only [yields_bind, Action.yields_say, Action.yields_call] <;> split
      <;> exact assigned

theorem follow_tends (r : Route) : (follow r).Tends := by
  intro s
  simp only [follow, yields_bind, Action.yields_follow, Action.yields_update, Action.yields_state]
  intro theme args
  generalize addressOf r theme.asTheme args.asArguments = address
  have addressed : s.Tends { s with address := some address } := .aside rfl rfl
  generalize Preview.mk .. = s₁ at addressed ⊢
  split
  · exact addressed
  · rename_i frame hf
    have managed : s₁.session.managed = some frame :=
      (congrArg Registry.managed addressed.registry).trans hf
    exact (lead_yields address r.origin managed).imp fun _ s' led => addressed.trans led

theorem setStatus_tends (status : Status) : (setStatus status).Tends :=
  .update (fun _ => rfl) fun _ => rfl

theorem fail_tends (settings : Settings) (problem : Problem) : (fail settings problem).Tends := by
  refine (Action.Tends.say _ _ _ _).bind fun _ => (setStatus_tends _).bind fun _ s => ?_
  simp only [yields_bind, Action.yields_state]
  split
  · exact .refl s
  · rename_i frame hf
    simp only [yields_bind, Action.yields_call]
    split <;> exact .call fun _ _ hd => hf.trans hd

theorem unbind_yields {rely : Preview → Preview → Prop} (s : Preview) :
    unbind.Yields rely (fun _ s' => s' =
      { s with bindings := none, bound := none, address := none }) s := by
  simp only [unbind, yields_bind, Action.yields_state]
  split
  · rename_i none
    simp only [Action.yields_update, none]
  · simp only [yields_bind, Action.yields_update, Action.yields_say, yields_dispose, yields_drop,
      yields_done]

theorem bind_tends (c : Controller) (cycle : Cycle) (defaults : Arguments) :
    (c.bind cycle defaults).Tends := by
  intro s
  simp only [bind, UrlSync.bind, yields_bind, Action.yields_state, Action.yields_sayAll,
    yields_create, yields_spawn, yields_done, Action.yields_update, Action.yields_look,
    Action.yields_say, yields_pure]
  intro cell url s₁ first address s₂ second x
  have synced := Preview.Turns.trans first second
  exact (synced.trans (.aside rfl rfl)).trans (.aside rfl rfl)

end Controller

theorem Loader.finish_tends (path key : String) : (Loader.finish path key).Tends := by
  intro s
  simp only [Loader.finish, yields_bind, Action.yields_state, Action.yields_sayAll]
  split <;> exact .refl s

namespace Controller
variable (c : Controller)

theorem finish_tends (cycle : Cycle) : (c.finish cycle).Tends := by
  refine (Loader.finish_tends _ _).bind fun loaded s => ?_
  simp only [yields_bind, Action.yields_state]
  split
  · exact .refl s
  · split
    · exact fail_tends _ _ s
    · exact bind_tends _ _ _ s

theorem advance_tends (cycle : Cycle) : (c.advance cycle).Tends := by
  intro s
  simp only [advance, yields_bind, Action.yields_state]
  split
  · exact .refl s
  · exact yields_bind.2 (c.finish_tends cycle s)

theorem resume_tends (cycle : Cycle) : (c.resume cycle).Tends := fun s =>
  Action.yields_inSpan.2 (c.advance_tends cycle s)

theorem begin_tends (token : Token) (config : Config) : (c.begin token config).Tends := by
  unfold begin
  split
  · exact (Action.Tends.say _ _ _ _).bind fun _ => (setStatus_tends _).bind fun _ => .pure _
  · exact (Action.Tends.say _ _ _ _).bind fun _ => (setStatus_tends _).bind fun _ => .pure _
  · exact (fail_tends _ _).bind fun _ => .pure _
  · have imported (path key : String) : (Loader.start path key).Tends :=
      (Action.Tends.say _ _ _ _).bind fun _ s => ⟨rfl, .cons rfl nofun⟩
    exact (imported _ _).bind fun _ => c.advance_tends _

/-- A cycle registers the frame that it finds; one that finds none ends with that problem. -/
structure Registers (s : Preview) (p : Progress) (s' : Preview) : Prop where
  turns : s.Turns (s.registry.cycled c.settings.frameId) s'
  missing : s.registry.found? c.settings.frameId = none →
    p = .ended (.failed (.frameMissing c.settings.frameId))

theorem run_yields (token : Token) (s : Preview) :
    (c.run token).Yields Preview.Tends (c.Registers s) s := by
  simp only [run, yields_bind, Action.yields_say]
  refine (unbind_yields s).imp fun _ s₁ unbound => ?_
  simp only [setStatus, Action.yields_update, Action.yields_state, unbound]
  split
  · rename_i missing
    have same : s.registry.cycled c.settings.frameId = s.registry := by
      simp [Registry.cycled, Registry.found?, Preview.registry, missing]
    simp only [yields_bind, Action.yields_say, Action.yields_update, yields_pure]
    refine ⟨?_, fun _ => rfl⟩
    rw [same]
    exact Preview.Tends.aside rfl rfl
  · rename_i frame found
    simp only [manage, yields_bind, Action.yields_state, Action.yields_sayAll, Action.yields_update]
    generalize hs₂ : Preview.mk .. = s₂
    have registered : s₂.registry = s.registry.cycled c.settings.frameId := by
      rw [← hs₂, Registry.cycled, Registry.found?]
      simp [Preview.registry, found, Session.manage_managed]
    have page : s₂.page.deeds = s.page.deeds := by rw [← hs₂]
    have there : ¬ s.registry.found? c.settings.frameId = none := by
      intro none
      cases found.symm.trans none
    have goes {act : Action Progress} (h : act.Tends) :
        act.Yields Preview.Tends (c.Registers s) s₂ :=
      (h s₂).imp fun _ _ tends => ⟨registered ▸ tends.before page, (absurd · there)⟩
    split
    · exact goes ((fail_tends _ _).bind fun _ => .pure _)
    · exact goes (c.begin_tends _ _)

theorem start_yields (s : Preview) : c.start.Yields Preview.Tends (c.Registers s) s := by
  simp only [start, yields_bind, Action.yields_state, Action.yields_update, Action.yields_inSpan]
  refine (c.run_yields _ _).imp fun _ s' registers => ?_
  exact ⟨registers.turns.before rfl, registers.missing⟩

theorem reload_tends : reload.Tends := by
  intro s
  simp only [reload, yields_bind, Action.yields_state]
  split
  · exact .refl s
  · exact .refl s
  · rename_i address frame _ hf
    simp only [yields_bind, Action.yields_call]
    split <;> exact .call fun _ _ hd => hf.trans hd

theorem dispose_tends : dispose.Tends := by
  intro s
  simp only [dispose, setStatus, yields_bind, Action.yields_update]
  refine (unbind_yields _).imp fun _ s' unbound => ?_
  rw [unbound]
  exact .aside rfl rfl

end Controller

theorem Toolbar.toggleScripts_tends (t : Toolbar) {reload : Action (Except Problem Bool)}
    (h : reload.Tends) : (t.toggleScripts reload).Tends := by
  intro s
  simp only [toggleScripts, yields_bind, Action.yields_state]
  split
  · exact .refl s
  · rename_i frame hf
    simp only [yields_bind, Action.yields_look, Action.yields_call]
    intro x
    have called (value : String) :
        s.Tends { s with page := (s.page.call (.setAttribute frame attributeName value)).2 } :=
      .call fun _ _ hd => hf.trans hd
    split
    · exact called _
    · refine ((Action.Tends.put t.scripts _).bind fun _ => (Action.Tends.say _ _ _ _).bind fun _ =>
        h.bind fun r => ?_) _
        |>.imp fun _ _ => (called _).trans
      split <;> exact .pure _

namespace App

theorem see_tends (toolbar : Toolbar) (view : View) : (see toolbar view).Tends := by
  intro s
  cases view with
  | labels => exact fun _ _ => .refl s
  | theme => exact fun _ => .refl s
  | themeOnce => exact fun _ => .refl s
  | arguments =>
    simp only [see, yields_bind, Action.yields_state]
    split
    · exact .refl s
    · exact fun _ => .refl s

theorem tell_tends (name : String) (toolbar : Toolbar) (view : View) :
    (tell name toolbar view).Tends := by
  intro s
  simp only [tell, yields_bind, Action.yields_state]
  split
  · have noted (sight : Sight) : Action.Tends (Action.note (.watched name sight)) :=
      fun s => ⟨rfl, .cons rfl nofun⟩
    exact ((see_tends toolbar view).bind noted) s
  · exact .refl s

/-- What effects and listeners do leaves the registry as it is, and calls for no other frame than
the managed one. -/
theorem abides : meaning.Abides Preview.Tends where
  refl := .refl
  trans := .trans
  body duty := by
    cases duty with
    | store key => exact Preview.Tends.refl
    | followUrl arguments => exact UrlSync.follow_tends arguments
    | followAddress r => exact Controller.follow_tends r
    | watch name view theme scripts => exact tell_tends name _ view
  reaction duty v := by
    cases duty with
    | store key => exact Stored.write_tends key v
    | _ => exact Preview.Tends.refl

theorem edit_tends (arguments : CellId) (key : String) (input : Input) :
    (edit arguments key input).Tends :=
  (Action.Tends.say _ _ _ _).bind fun _ _ _ _ => id

theorem resetArguments_tends (story : BoundStory) : (Toolbar.resetArguments story).Tends :=
  (Action.Tends.put _ _).bind fun _ => .say _ _ _ _

theorem toggleTheme_tends (t : Toolbar) : t.toggleTheme.Tends := by
  intro s
  simp only [Toolbar.toggleTheme, yields_bind, Action.yields_look, Action.yields_put,
    Action.yields_say, yields_pure]
  exact fun x s' => id

end App
end StoryPreview
