import StoryPreview.Proofs.OrderedMap
import StoryPreview.Proofs.Text.Words
import StoryPreview.Proofs.Uses
/-!
The permission of the managed frame to run scripts. It stands twice, as a flag in a cell of the
toolbar and as a word in an attribute of the frame, and the two agree from the first change on that
the page carries out, whatever calls it refuses and whatever reloads fail.
-/
namespace StoryPreview
open Reactive Program

/-! The words of the attribute. -/

namespace Toolbar
variable {on : Bool} {ws : List String} {w : String}

theorem isWord_of_mem_wordsOf {value : String} (h : w ∈ wordsOf value) : Text.IsWord w.toList := by
  obtain ⟨cs, hcs, rfl⟩ := List.mem_map.1 h
  rw [String.toList_ofList]
  exact Text.isWord_of_mem_words hcs

theorem isWord_scriptsWord : Text.IsWord scriptsWord.toList where
  ne_nil := by decide
  plain := by
    have plain : scriptsWord.toList.all (!Text.isBlank ·) = true := by decide
    simpa using List.all_eq_true.1 plain

/-- Words that are written with blanks between them are read again. -/
theorem wordsOf_intercalate (h : ∀ w ∈ ws, Text.IsWord w.toList) :
    wordsOf (" ".intercalate ws) = ws := by
  have words : ∀ cs ∈ ws.map String.toList, Text.IsWord cs := by
    rintro cs hcs
    obtain ⟨w, hw, rfl⟩ := List.mem_map.1 hcs
    exact h w hw
  have blank : " ".toList = [' '] := rfl
  rw [wordsOf, String.toList_intercalate, blank, Text.words_intercalate words, List.map_map]
  exact List.map_id'' (fun w => String.ofList_toList) ws

theorem scriptsWord_mem_permit : scriptsWord ∈ permit on ws ↔ on = true := by
  unfold permit
  cases on with
  | false => simp
  | true => by_cases h : scriptsWord ∈ ws <;> simp [h]

theorem permit_others : (permit on ws).filter (· ≠ scriptsWord) = ws.filter (· ≠ scriptsWord) := by
  unfold permit
  cases on with
  | false => simp
  | true => by_cases h : scriptsWord ∈ ws <;> simp [h]

theorem isWord_of_mem_permit (h : ∀ w ∈ ws, Text.IsWord w.toList) (hw : w ∈ permit on ws) :
    Text.IsWord w.toList := by
  by_cases new : w = scriptsWord
  · exact new ▸ isWord_scriptsWord
  · have other : w ∈ (permit on ws).filter (· ≠ scriptsWord) :=
      List.mem_filter.2 ⟨hw, by simpa using new⟩
    rw [permit_others] at other
    exact h w (List.mem_filter.1 other).1

end Toolbar

/-! What the page says of a frame's permissions. -/

def Deed.isPermitting (frame : FrameId) : Deed → Bool
  | .called (.setAttribute f name _) refused =>
    f = frame && name = Toolbar.attributeName && !refused
  | _ => false

def Deed.isReload : Deed → Bool
  | .reloaded => true
  | _ => false

namespace Page
variable {p p' p'' : Page} {frame : FrameId} {c : Call}

def sandbox (p : Page) (frame : FrameId) : Option String :=
  (p.frame? frame).bind fun f => f.attributes.get? Toolbar.attributeName

def permissions (p : Page) (frame : FrameId) : List String :=
  Toolbar.wordsOf ((p.sandbox frame).getD "")

def otherPermissions (p : Page) (frame : FrameId) : List String :=
  (p.permissions frame).filter (· ≠ Toolbar.scriptsWord)

def timesPermitted (p : Page) (frame : FrameId) : Nat := p.deeds.countP (Deed.isPermitting frame)

def timesReloaded (p : Page) : Nat := p.deeds.countP Deed.isReload

/-- The permissions of a frame have not been touched, and no reload has been asked for. -/
structure Spares (frame : FrameId) (p p' : Page) : Prop where
  frames : p'.frames.length = p.frames.length
  sandbox : p'.sandbox frame = p.sandbox frame
  permitted : p'.timesPermitted frame = p.timesPermitted frame
  reloads : p'.timesReloaded = p.timesReloaded

namespace Spares

theorem refl (p : Page) : p.Spares frame p := ⟨rfl, rfl, rfl, rfl⟩

theorem trans (h : p.Spares frame p') (h' : p'.Spares frame p'') : p.Spares frame p'' :=
  ⟨h'.frames.trans h.frames, h'.sandbox.trans h.sandbox, h'.permitted.trans h.permitted,
    h'.reloads.trans h.reloads⟩

theorem permissions (h : p.Spares frame p') : p'.permissions frame = p.permissions frame := by
  rw [Page.permissions, Page.permissions, h.sandbox]

theorem note {d : Deed} (hp : d.isPermitting frame = false) (hr : d.isReload = false) :
    p.Spares frame (p.note d) :=
  ⟨rfl, rfl, List.countP_cons_of_neg (by simp [hp]), List.countP_cons_of_neg (by simp [hr])⟩

theorem allow (k : CallKind) (a : Allowance) : p.Spares frame (p.allow k a) := ⟨rfl, rfl, rfl, rfl⟩

theorem store (p : Page) (key text : String) : p.Spares frame (p.store key text).2 := by
  unfold Page.store
  split
  · rename_i storage _
    have stored : p.Spares frame { p with storage := storage } := ⟨rfl, rfl, rfl, rfl⟩
    exact stored.trans (.note rfl rfl)
  · exact .note rfl rfl

end Spares

theorem sandbox_modifyFrame (p : Page) (f frame : FrameId) (u : Frame → Frame) :
    (p.modifyFrame f u).sandbox frame =
    p.frames[frame]?.bind fun x => (if f = frame then u x else x).attributes.get?
      Toolbar.attributeName := by
  simp only [sandbox, frame?, modifyFrame, List.getElem?_modify]
  cases p.frames[frame]? <;> simp

/-- A call of another kind, if it is carried out, leaves the attribute. -/
theorem Spares.obey (hk : c.kind ≠ .setAttribute) : p.Spares frame (p.obey c) := by
  have same (u : Frame → Frame) (hu : ∀ x, (u x).attributes = x.attributes) (f : FrameId) :
      p.Spares frame (p.modifyFrame f u) := by
    refine ⟨List.length_modify .., ?_, rfl, rfl⟩
    rw [sandbox_modifyFrame]
    exact Option.bind_congr fun x _ => by split <;> simp [hu]
  cases c with
  | setAttribute f name value => exact absurd rfl hk
  | setSrc f src => exact same (fun x => { x with src := p.srcBase ++ src }) (fun _ => rfl) f
  | setSrcdoc f html => exact same (fun x => { x with srcdoc := some html }) (fun _ => rfl) f
  | setClass s name on => cases s <;> exact ⟨rfl, rfl, rfl, rfl⟩
  | _ => exact ⟨rfl, rfl, rfl, rfl⟩

theorem Spares.call (hk : c.kind ≠ .setAttribute) : p.Spares frame (p.call c).2 := by
  have plain (refused : Bool) : (Deed.called c refused).isPermitting frame = false := by
    cases c with
    | setAttribute f name value => exact absurd rfl hk
    | _ => rfl
  rcases call_cases p c with ⟨he, -⟩ | ⟨he, -⟩
  · rw [he]
    exact ((Spares.obey hk).trans (.allow ..)).trans (.note (plain _) rfl)
  · rw [he]
    exact .note (plain _) rfl

theorem Spares.withArguments (p : Page) (args : Arguments) :
    p.Spares frame (p.withArguments args) := by
  unfold Page.withArguments
  split
  · exact .refl p
  · exact .call (by simp [Call.kind])

theorem Spares.ledTo (p : Page) (f : FrameId) (a : Address) (origin : String) :
    p.Spares frame (p.ledTo f a origin) := by
  unfold Page.ledTo
  split
  · exact .refl p
  · exact .call (by simp [Call.kind])

def admitsAttribute (p : Page) : Bool := (p.allowance .setAttribute).admits

theorem call_permission_refused (h : p.admitsAttribute = false) (on : Bool) :
    (∃ problem, (p.call (p.permission frame on)).1 = .error problem) ∧
      p.Spares frame (p.call (p.permission frame on)).2 := by
  have refused : ¬(p.allowance (p.permission frame on).kind).admits = true := by
    rw [Bool.not_eq_true]
    exact h
  rw [Page.call, if_neg refused]
  exact ⟨⟨_, rfl⟩, .note (by simp [permission, Deed.isPermitting]) rfl⟩

/-- What stands in the attribute of a frame on the page when a change has been carried out. -/
structure Permitted (frame : FrameId) (on : Bool) (p p' : Page) : Prop where
  frames : p'.frames.length = p.frames.length
  permissions : p'.permissions frame = Toolbar.permit on (p.permissions frame)
  permitted : p'.timesPermitted frame = p.timesPermitted frame + 1
  reloads : p'.timesReloaded = p.timesReloaded

theorem call_permission_admitted (h : p.admitsAttribute = true) (hf : frame < p.frames.length)
    (on : Bool) :
    (p.call (p.permission frame on)).1 = .ok () ∧
    p.Permitted frame on (p.call (p.permission frame on)).2 := by
  have admitted : (p.allowance (p.permission frame on).kind).admits = true := h
  rw [Page.call, if_pos admitted]
  refine ⟨rfl, List.length_modify .., ?_,
    List.countP_cons_of_pos (by simp [permission, Deed.isPermitting]),
    List.countP_cons_of_neg (by simp [Deed.isReload])⟩
  have words : ∀ w ∈ Toolbar.permit on (p.permissions frame), Text.IsWord w.toList := fun w hw =>
    Toolbar.isWord_of_mem_permit (fun w hw => Toolbar.isWord_of_mem_wordsOf hw) hw
  have written : ((p.obey (p.permission frame on)).sandbox frame) =
      some (" ".intercalate (Toolbar.permit on (p.permissions frame))) := by
    rw [permission, obey, sandbox_modifyFrame, List.getElem?_eq_getElem hf]
    simp only [Option.bind_some, if_true, Entries.get?_insert]
    rfl
  change Toolbar.wordsOf (((p.obey (p.permission frame on)).sandbox frame).getD "") = _
  rw [written]
  exact Toolbar.wordsOf_intercalate words

end Page

/-! What effects and listeners leave alone. -/

structure Preview.Spares (frame : FrameId) (s s' : Preview) : Prop where
  session : s'.session = s.session
  bound : s'.bound = s.bound
  page : s.page.Spares frame s'.page

namespace Preview.Spares
variable {frame : FrameId} {s s' s'' : Preview}

theorem refl (s : Preview) : s.Spares frame s := ⟨rfl, rfl, .refl _⟩

theorem trans (h : s.Spares frame s') (h' : s'.Spares frame s'') : s.Spares frame s'' :=
  ⟨h'.session.trans h.session, h'.bound.trans h.bound, h.page.trans h'.page⟩

theorem fits {n : Nat} (h : s.Spares frame s') (fits : s.Fits n) : s'.Fits n := by
  intro story hs
  exact fits story (h.bound.symm.trans hs)

/-- Another address, and a page on which the frame is spared. -/
theorem addressed {p : Page} (h : s.page.Spares frame p) (a : Address) :
    s.Spares frame { s with address := some a, page := p } := ⟨rfl, rfl, h⟩

theorem ledTo (s : Preview) (a : Address) (origin : String) :
    s.Spares frame (s.ledTo a origin) := by
  unfold Preview.ledTo
  split
  · exact .addressed (.refl s.page) a
  · exact .addressed (.ledTo ..) a

theorem reloaded (s : Preview) : s.Spares frame s.reloaded := by
  unfold Preview.reloaded
  split
  · exact ⟨rfl, rfl, .call (by simp [Call.kind])⟩
  · exact .refl s

end Preview.Spares

theorem Duty.Acts.spares {frame : FrameId} {duty : Duty} {val : CellId → Signal} {s s' : Preview}
    (h : duty.Acts val s s') : s.Spares frame s' := by
  cases duty with
  | store key =>
    obtain rfl : s' = s := h
    exact .refl s'
  | followUrl arguments =>
    obtain rfl : s' = { s with page := s.page.withArguments (val arguments).asArguments } := h
    exact ⟨rfl, rfl, .withArguments ..⟩
  | followAddress route =>
    obtain rfl : s' = s.ledTo _ _ := h
    exact .ledTo ..
  | watch name =>
    rcases h with rfl | ⟨sight, rfl⟩
    · exact .refl s'
    · exact ⟨rfl, rfl, .note rfl rfl⟩

theorem Duty.Hears.spares {frame : FrameId} {duty : Duty} {v : Signal} {s s' : Preview}
    (h : duty.Hears v s s') : s.Spares frame s' := by
  cases duty with
  | store key =>
    obtain rfl : s' = { s with page := (s.page.store key v.toJson.text).2 } := h
    exact ⟨rfl, rfl, .store ..⟩
  | _ =>
    obtain rfl : s' = s := h
    exact .refl s'

namespace Toolbar
variable {t : Toolbar} {frame : FrameId} {g g' g'' : System}

def isOn (t : Toolbar) (g : System) : Bool := (g.value t.scripts).asFlag

structure Ready (t : Toolbar) (frame : FrameId) (g : System) : Prop where
  wired : App.calm.Wired none g
  fits : g.world.Fits g.cells.length
  scripts : t.scripts < g.cells.length
  managed : g.world.session.managed = some frame
  placed : frame < g.world.page.frames.length

structure Unmoved (t : Toolbar) (frame : FrameId) (g g' : System) : Prop where
  value : g'.value t.scripts = g.value t.scripts
  page : g.world.page.Spares frame g'.world.page

namespace Unmoved

theorem refl (g : System) : t.Unmoved frame g g := ⟨rfl, .refl _⟩

theorem isOn (h : t.Unmoved frame g g') :
    t.isOn g' = t.isOn g := by rw [Toolbar.isOn, Toolbar.isOn, h.value]

end Unmoved

namespace Ready

theorem spared (h : t.Ready frame g) (wired : App.calm.Wired none g')
    (length : g'.cells.length = g.cells.length) (spares : g.world.Spares frame g'.world) :
    t.Ready frame g' where
  wired := wired
  fits := by
    rw [length]
    exact spares.fits h.fits
  scripts := by
    rw [length]
    exact h.scripts
  managed := by rw [spares.session, h.managed]
  placed := by
    rw [spares.page.frames]
    exact h.placed

/-- What changes the world and spares the frame leaves a toolbar ready. -/
theorem of_spares (h : t.Ready frame g) (parts : g.SameParts g')
    (spares : g.world.Spares frame g'.world) : t.Ready frame g' ∧ t.Unmoved frame g g' := by
  have length : g'.cells.length = g.cells.length := congrArg List.length parts.cells
  exact ⟨h.spared (parts.wired h.wired) length spares, by rw [Graph.value_congr parts.cells],
    spares.page⟩

theorem withPage (h : t.Ready frame g) {p : Page}
    (frames : p.frames.length = g.world.page.frames.length) :
    t.Ready frame (g.withWorld { g.world with page := p }) where
  wired := h.wired.congr rfl rfl rfl
  fits := h.fits
  scripts := h.scripts
  managed := h.managed
  placed := frames ▸ h.placed

/-- The flag is changed; whatever follows it leaves the attribute alone. -/
theorem put (h : t.Ready frame g) (on : Bool)
    (new : Signal.same (g.value t.scripts) (.flag on) = false) :
    Action.Done (Action.put t.scripts (.flag on)) g fun _ g' =>
      t.Ready frame g' ∧ t.isOn g' = on ∧ g.world.page.Spares frame g'.world.page := by
  have kept : App.calm.Kept (Function.update g.value t.scripts (.flag on)) g.Live (.flag on)
      (g.world.Spares frame) (g.world.Spares frame) :=
    ⟨fun _ _ hs acts => hs.trans (Duty.Acts.spares acts),
      fun _ hs hears => hs.trans (Duty.Hears.spares hears)⟩
  refine (App.calm.write_ends 999 h.wired h.scripts (fun _ hs => hs.fits h.fits)
    kept (.refl _)).imp ?_
  rintro _ g' (⟨same, -⟩ | ⟨-, written, spares, -⟩)
  · exact absurd (same.symm.trans new) (by simp)
  refine ⟨h.spared written.wired written.length spares, ?_, spares.page⟩
  rw [isOn, written.value, Function.update_self]
  rfl

end Ready

theorem same_flipped (v : Signal) : Signal.same v (.flag !v.asFlag) = false := by
  cases v <;> simp [Signal.same, Signal.asFlag]

/-! One call. -/

def Bystands {α : Type} (t : Toolbar) (frame : FrameId) (act : Action α) : Prop :=
  ∀ {g : System}, t.Ready frame g → act.Done g fun _ g' => t.Ready frame g' ∧ t.Unmoved frame g g'

theorem bystands_pure {α : Type} (a : α) : t.Bystands frame (pure a) :=
  fun h => ends_pure.2 ⟨h, .refl _⟩

theorem bystands_reload : t.Bystands frame Controller.reload := by
  intro g h
  refine Controller.reload_done.imp ?_
  rintro _ g' ⟨parts, world⟩
  exact h.of_spares parts (world ▸ .reloaded g.world)

def limit (a : Allowance) : Action Unit := Action.onPage fun p => ((), p.allow .setAttribute a)

theorem bystands_limit (a : Allowance) : t.Bystands frame (limit a) := fun h =>
  Action.ends_onPage.2 (h.of_spares ⟨rfl, rfl, rfl⟩ ⟨rfl, rfl, .allow ..⟩)

def recorded (reload : Action (Except Problem Bool)) : Action (Except Problem Bool) := do
  Action.note .reloaded
  reload

structure Changed (t : Toolbar) (frame : FrameId) (g g' : System) : Prop where
  flipped : t.isOn g' = !t.isOn g
  agrees : t.isOn g' = true ↔ scriptsWord ∈ g'.world.page.permissions frame
  others : g'.world.page.otherPermissions frame = g.world.page.otherPermissions frame
  permitted : g'.world.page.timesPermitted frame = g.world.page.timesPermitted frame + 1
  reloads : g'.world.page.timesReloaded = g.world.page.timesReloaded + 1

/-- What a call does and gives back. A change that the page refuses is an error, and nothing else
happens. After a change that it carries out the reload runs, and the call ends as the reload
does. -/
def Answers (t : Toolbar) (frame : FrameId) (reload : Action (Except Problem Bool)) (g : System)
    (r : Except Problem Bool) (g' : System) : Prop :=
  if g.world.page.admitsAttribute then
    t.Changed frame g g' ∧ ∃ before outcome,
      t.Changed frame g before ∧ reload.exec App.meaning before = some (outcome, g') ∧
      r.isOk = outcome.isOk
  else t.Unmoved frame g g' ∧ r.isOk = false

theorem Changed.unmoved (h : t.Changed frame g g') (rest : t.Unmoved frame g' g'') :
    t.Changed frame g g'' where
  flipped := rest.isOn.trans h.flipped
  agrees := by
    rw [rest.isOn, rest.page.permissions]
    exact h.agrees
  others := by
    rw [Page.otherPermissions, rest.page.permissions]
    exact h.others
  permitted := rest.page.permitted.trans h.permitted
  reloads := rest.page.reloads.trans h.reloads

/-- A change that the page carries out, the flag that follows it, and the record of the reload that
is asked for then. -/
theorem changed_of_permitted {q : Page} {k : System} (flipped : t.isOn g' = !t.isOn g)
    (permitted : g.world.page.Permitted frame (!t.isOn g) q) (rest : q.Spares frame g'.world.page)
    (value : k.value = g'.value) (page : k.world.page = g'.world.page.note .reloaded) :
    t.Changed frame g k := by
  have on : t.isOn k = !t.isOn g := by
    rw [← flipped, isOn, isOn, value]
  have permissions : k.world.page.permissions frame = permit (!t.isOn g)
      (g.world.page.permissions frame) := by
    rw [page, ← permitted.permissions, ← rest.permissions]
    rfl
  refine ⟨on, ?_, ?_, ?_, ?_⟩
  · rw [on, permissions]
    exact scriptsWord_mem_permit.symm
  · rw [Page.otherPermissions, permissions]
    exact permit_others
  · rw [← permitted.permitted, ← rest.permitted, page]
    exact List.countP_cons_of_neg (by simp [Deed.isPermitting])
  · rw [← permitted.reloads, ← rest.reloads, page]
    exact List.countP_cons_of_pos rfl

theorem toggleScripts_answers (h : t.Ready frame g) {reload : Action (Except Problem Bool)}
    (quiet : t.Bystands frame reload) :
    (t.toggleScripts (recorded reload)).Done g fun r g' => t.Ready frame g' ∧
    t.Answers frame reload g r g' := by
  simp only [toggleScripts, Action.Done, ends_bind, Action.ends_state, h.managed, Action.ends_look,
    h.scripts, true_and, Action.ends_call]
  have call : Call.setAttribute frame attributeName
      (" ".intercalate (permit (!(g.value t.scripts).asFlag)
      (wordsOf (((g.world.page.frame? frame).bind fun f => f.attributes.get? attributeName).getD
        "")))) =
      g.world.page.permission frame !t.isOn g := rfl
  rw [call]
  cases admits : g.world.page.admitsAttribute with
  | false =>
    obtain ⟨⟨problem, refused⟩, spares⟩ := Page.call_permission_refused admits !t.isOn g
    rw [refused]
    refine ends_pure.2 ⟨h.withPage spares.frames, ?_⟩
    rw [Answers, admits]
    exact ⟨⟨rfl, spares⟩, rfl⟩
  | true =>
    obtain ⟨carried, permitted⟩ := Page.call_permission_admitted admits h.placed !t.isOn g
    rw [carried]
    simp only [ends_bind, Action.ends_say, recorded, Action.ends_note]
    refine ((h.withPage permitted.frames).put (!t.isOn g) (same_flipped _)).imp ?_
    rintro _ g₁ ⟨ready₁, flipped, spares⟩
    -- The report changes neither cells nor the world.
    generalize reported : Graph.record g₁ _ = k
    have parts : g₁.SameParts k := by rw [← reported]; exact ⟨rfl, rfl, rfl⟩
    have world : k.world = g₁.world := by rw [← reported]; rfl
    have ready :=
      (ready₁.of_spares parts (world ▸ .refl _)).1.withPage (p := k.world.page.note .reloaded) rfl
    have changed :
        t.Changed frame g (k.withWorld { k.world with page := k.world.page.note .reloaded }) :=
      changed_of_permitted flipped permitted spares (Graph.value_congr parts.cells)
        (by rw [← world]; rfl)
    obtain ⟨outcome, g', run, ready', unmoved⟩ := quiet ready
    refine ⟨outcome, g', run, ?_⟩
    have answers {r : Except Problem Bool} (same : r.isOk = outcome.isOk) :
        t.Answers frame reload g r g' := by
      rw [Answers, if_pos admits]
      exact ⟨changed.unmoved unmoved, _, outcome, changed, run, same⟩
    cases outcome with
    | error problem => exact ends_pure.2 ⟨ready', answers rfl⟩
    | ok => exact ends_pure.2 ⟨ready', answers rfl⟩

/-! Many calls. -/

/-- What becomes of flag and attribute from one state to another. Other words keep their order, each
change is followed by one reload, and once there has been a change, flag and attribute agree. -/
structure InStep (t : Toolbar) (frame : FrameId) (g g' : System) : Prop where
  others : g'.world.page.otherPermissions frame = g.world.page.otherPermissions frame
  reloads : g'.world.page.timesReloaded + g.world.page.timesPermitted frame =
    g.world.page.timesReloaded + g'.world.page.timesPermitted frame
  grows : g.world.page.timesPermitted frame ≤ g'.world.page.timesPermitted frame
  still : g'.world.page.timesPermitted frame = g.world.page.timesPermitted frame →
    t.isOn g' = t.isOn g ∧ g'.world.page.sandbox frame = g.world.page.sandbox frame
  agrees : g.world.page.timesPermitted frame < g'.world.page.timesPermitted frame →
    (t.isOn g' = true ↔ scriptsWord ∈ g'.world.page.permissions frame)

namespace InStep

theorem of_unmoved (h : t.Unmoved frame g g') : t.InStep frame g g' where
  others := by rw [Page.otherPermissions, Page.otherPermissions, h.page.permissions]
  reloads := by rw [h.page.reloads, h.page.permitted]
  grows := h.page.permitted.ge
  still := fun _ => ⟨h.isOn, h.page.sandbox⟩
  agrees := fun new => absurd h.page.permitted new.ne'

theorem of_changed (h : t.Changed frame g g') : t.InStep frame g g' where
  others := h.others
  reloads := by
    rw [h.reloads, h.permitted]
    omega
  grows := by
    rw [h.permitted]
    exact Nat.le_succ _
  still := fun same => absurd (h.permitted.symm.trans same) (Nat.succ_ne_self _)
  agrees := fun _ => h.agrees

theorem trans (h : t.InStep frame g g') (h' : t.InStep frame g' g'') : t.InStep frame g g'' where
  others := h'.others.trans h.others
  reloads := by
    have first := h.reloads
    have second := h'.reloads
    omega
  grows := h.grows.trans h'.grows
  still := by
    intro same
    have first : g'.world.page.timesPermitted frame = g.world.page.timesPermitted frame :=
      le_antisymm (h'.grows.trans_eq same) h.grows
    obtain ⟨flag, text⟩ := h.still first
    obtain ⟨flag', text'⟩ := h'.still (same.trans first.symm)
    exact ⟨flag'.trans flag, text'.trans text⟩
  agrees := by
    intro new
    -- The last change is either after the state between, or before it, and then nothing has been
    -- touched since.
    rcases h'.grows.lt_or_eq with later | same
    · exact h'.agrees later
    · obtain ⟨flag, text⟩ := h'.still same.symm
      rw [flag, Page.permissions, text]
      exact h.agrees (same ▸ new)

end InStep

theorem Answers.inStep {reload : Action (Except Problem Bool)} {r : Except Problem Bool}
    (h : t.Answers frame reload g r g') : t.InStep frame g g' := by
  unfold Answers at h
  split at h
  · exact .of_changed h.1
  · exact .of_unmoved h.1

inductive Move where
  | toggle (reload : Action (Except Problem Bool))
  | limit (a : Allowance)
  | other (act : Action Unit)

def Move.Bystands (t : Toolbar) (frame : FrameId) : Move → Prop
  | .toggle reload => t.Bystands frame reload
  | .limit _ => True
  | .other act => t.Bystands frame act

def make (t : Toolbar) : Move → Action Unit
  | .toggle reload => do
    let _ ← t.toggleScripts (recorded reload)
    return ()
  | .limit a => Toolbar.limit a
  | .other act => act

def makeAll (t : Toolbar) : List Move → Action Unit
  | [] => pure ()
  | m :: ms => do
    t.make m
    t.makeAll ms

theorem make_done (h : t.Ready frame g) {m : Move} (hm : m.Bystands t frame) :
    (t.make m).Done g fun _ g' => t.Ready frame g' ∧ t.InStep frame g g' := by
  cases m with
  | toggle reload =>
    refine ends_bind.2 ((toggleScripts_answers h hm).imp ?_)
    rintro r g' ⟨ready, answers⟩
    exact ends_pure.2 ⟨ready, answers.inStep⟩
  | limit a => exact (bystands_limit a h).imp fun _ g' post => ⟨post.1, .of_unmoved post.2⟩
  | other act => exact (hm h).imp fun _ g' post => ⟨post.1, .of_unmoved post.2⟩

theorem makeAll_done (h : t.Ready frame g) {ms : List Move} (hm : ∀ m ∈ ms, m.Bystands t frame) :
    (t.makeAll ms).Done g fun _ g' => t.Ready frame g' ∧ t.InStep frame g g' := by
  induction ms generalizing g with
  | nil => exact ends_pure.2 ⟨h, .of_unmoved (.refl g)⟩
  | cons m ms ih =>
    obtain ⟨first, rest⟩ := List.forall_mem_cons.1 hm
    refine ends_bind.2 ((make_done h first).imp ?_)
    rintro _ g₁ ⟨ready, inStep⟩
    exact (ih ready rest).imp fun _ g' post => ⟨post.1, inStep.trans post.2⟩

/-- Whatever calls are made, whatever changes the page refuses and whatever reloads fail: flag and
attribute stay in step, and so does what the next call does. -/
theorem scripts_in_step (h : t.Ready frame g) {ms : List Move} (hm : ∀ m ∈ ms, m.Bystands t frame) :
    (t.makeAll ms).Done g fun _ g' => t.InStep frame g g' ∧
      ∀ reload, t.Bystands frame reload →
        (t.toggleScripts (recorded reload)).Done g' fun r g'' =>
          t.Answers frame reload g' r g'' := by
  refine (makeAll_done h hm).imp ?_
  rintro _ g' ⟨ready, inStep⟩
  refine ⟨inStep, fun reload quiet => ?_⟩
  exact (toggleScripts_answers ready quiet).imp fun _ _ post => post.2

/-- Scripts are permitted twice. The reload after the first change fails, and the second change is
refused. -/
theorem scripts_in_step_twice :
    let page : Page :=
      { frames := [{ attributes := [("sandbox", "allow-scripts  allow-forms\tallow-scripts")] }] }
    let g : System := (page.blank.addCell (.flag true)).2.withWorld
      { page := page, session := { managed := some 0 } }
    let t : Toolbar := ⟨0, 0⟩
    let failing : Action (Except Problem Bool) := pure (.error (.refused "no reload"))
    let ms : List Move := [.toggle failing, .limit (some 0), .toggle failing]
    (t.Ready 0 g ∧ ∀ m ∈ ms, m.Bystands t 0) ∧
      ((t.makeAll ms).exec App.meaning g).map
        (fun r => (t.isOn r.2, r.2.world.page.permissions 0)) = some (false, ["allow-forms"]) ∧
      (t.makeAll ms).Done g fun _ g' => t.InStep 0 g g' ∧
        (t.toggleScripts (recorded Controller.reload)).Done g' fun r g'' =>
          t.Answers 0 Controller.reload g' r g'' := by
  intro page g t failing ms
  have ready : t.Ready 0 g := ⟨((App.Desk.blank_wired page).addCell _).congr rfl rfl rfl, nofun,
    by decide, rfl, by decide⟩
  have quiet : ∀ m ∈ ms, m.Bystands t 0 := by
    simp only [ms, List.forall_mem_cons]
    exact ⟨bystands_pure _, trivial, bystands_pure _, nofun⟩
  refine ⟨⟨ready, quiet⟩, by decide +kernel, (scripts_in_step ready quiet).imp ?_⟩
  rintro _ g' ⟨inStep, next⟩
  exact ⟨inStep, next Controller.reload bystands_reload⟩

end Toolbar

/-- The toolbar of a preview is ready as soon as a frame is managed. -/
theorem App.Desk.Sound.ready {φ : Aspect → Prop} {d : Desk} {g : System} {frame : FrameId}
    (h : d.Sound φ g) (hl : φ .frames) (hm : g.world.session.managed = some frame) :
    d.app.toolbar.Ready frame g :=
  ⟨h.rigged.wired, h.fits, h.rigged.scripts, hm, (h.attended.frames hl).2 frame hm⟩

end StoryPreview
