import StoryPreview.Boot
import StoryPreview.Proofs.Dialogues
/-!
Starts of a frame. A start is a sequence of steps, and the first that fails decides: its problem is
the outcome, nothing of a later step is asked, and one panel shows the problem. Nothing is assumed
about the document, which answers each request as it likes, or about the theme classes that earlier
starts have left.
-/
namespace StoryPreview
open Reactive
variable {M E W α β : Type}

namespace Boot

/-! ### The steps -/

inductive Step where
  | mountPoint
  | clear
  | configElement
  | configParse
  | themeClasses
  | storyTarget
  | moduleImport
  | moduleExport
  | renderMember
  | render
  | mount
  deriving DecidableEq, Repr

def Step.number : Step → Nat
  | mountPoint => 0
  | clear => 1
  | configElement => 2
  | configParse => 3
  | themeClasses => 4
  | storyTarget => 5
  | moduleImport => 6
  | moduleExport => 7
  | renderMember => 8
  | render => 9
  | mount => 10

theorem Step.number_le (s : Step) : s.number ≤ Step.mount.number := by cases s <;> decide

/-- Steps that are tried until one fails, which is told with its problem. -/
abbrev Attempt (M E α : Type) := ExceptT (Step × Problem) (Dialogue M E) α

def Attempt.hold (d : Document M E W) (a : Attempt M E α) (w : W) :
    Transcript M E W (Except (Step × Problem) α) :=
  Dialogue.hold d (ExceptT.run a) w

def Step.attempt (s : Step) (p : Dialogue M E (Except Problem α)) : Attempt M E α :=
  ExceptT.mk do return (← p).mapError (s, ·)

def targetSteps (s : Settings) (path key : String) (extra : Option Arguments) :
    Attempt M E Unit := do
  let module ← Step.moduleImport.attempt do
    return (← Dialogue.request (.fetch path)).mapError (.moduleUnavailable path)
  let shape ← Step.moduleExport.attempt do
    match ← Dialogue.request (.shape module key) with
    | some shape => return .ok shape
    | none => return .error (.missingExport key path (← Dialogue.request (.exports module)))
  Step.renderMember.attempt
    (return if shape.renders then .ok () else .error (.notRenderable key path))
  let element ← Step.render.attempt do
    return (← Dialogue.request (.render module key extra)).mapError (.renderFailed key path)
  Step.mount.attempt do
    return (← Dialogue.request (.mount s.mountId element)).mapError (.renderFailed key path)

def configuredSteps (b : Boot) (c : Config) : Attempt M E Unit := do
  Step.themeClasses.attempt
    (if b.classes.applied = some c.theme then return .ok ()
      else ThemeClasses.setAll (b.classes.changes c.theme))
  let (path, key) ← Step.storyTarget.attempt (return c.target)
  targetSteps b.settings path key (overlay b.settings c)

def fillSteps (b : Boot) : Attempt M E Unit := do
  Step.clear.attempt (Dialogue.request (.setInnerHtml b.settings.mountId ""))
  let text ← Step.configElement.attempt do
    return (← Dialogue.request (.text b.settings.configId)).elim
      (.error (configMissing b.settings)) .ok
  let config ← Step.configParse.attempt (return Config.parse text)
  b.configuredSteps config

def steps (b : Boot) : Attempt M E Unit := do
  Step.mountPoint.attempt do
    return if ← Dialogue.request (.present b.settings.mountId) then .ok ()
      else .error (.mountMissing b.settings.mountId)
  b.fillSteps

def failure? (b : Boot) (d : Document M E W) (w : W) : Option (Step × Problem) :=
  match (b.steps.hold d w).outcome with
  | .ok () => none
  | .error failure => some failure

end Boot

namespace Request
open Boot

/-- The step that a request belongs to. The mount is cleared with an empty text, and any other
markup is that of a panel, which belongs to no step. -/
def step? : Request M E → Option Step
  | present _ => some .mountPoint
  | text _ => some .configElement
  | setInnerHtml _ html => if html = "" then some .clear else none
  | setBodyHtml _ => none
  | setClass .. => some .themeClasses
  | fetch _ => some .moduleImport
  | shape .. | exports _ => some .moduleExport
  | render .. => some .render
  | mount .. => some .mount

def writesPanel (q : Request M E) : Bool := q.step?.isNone

def mounts (q : Request M E) : Bool := q.step? = some .mount

end Request

namespace Boot

def panelWrite (s : Settings) (step : Step) (problem : Problem) : Request M E :=
  if step = .mountPoint then .setBodyHtml (Panel.ofProblem problem).html
  else .setInnerHtml s.mountId (Panel.ofProblem problem).html

def writingPanels (d d' : Document M E W) : Document M E W :=
  fun q w => if q.writesPanel then d' q w else d q w

variable {d : Document M E W} {w : W}

/-! ### Steps in a transcript -/

@[simp] theorem mapError_ok {ε ε' : Type} (f : ε → ε') (a : α) :
    (Except.ok a).mapError f = .ok a := rfl

@[simp] theorem mapError_error {ε ε' : Type} (f : ε → ε') (e : ε) :
    (Except.error e : Except ε α).mapError f = .error (f e) := rfl

theorem hold_attempt (s : Step) (p : Dialogue M E (Except Problem α)) :
    (s.attempt p).hold d w = (p.hold d w).map (Except.mapError (s, ·)) := by
  rw [Attempt.hold, Step.attempt, ExceptT.run_mk, Dialogue.hold_bind, Dialogue.hold_pure,
    Transcript.after, List.append_nil]
  rfl

theorem hold_attempt_bind (s : Step) (p : Dialogue M E (Except Problem α)) (f : α → Attempt M E β) :
    (s.attempt p >>= f).hold d w = match (p.hold d w).outcome with
    | .ok x => ((f x).hold d (p.hold d w).state).after (p.hold d w).asked
    | .error e => ⟨.error (s, e), (p.hold d w).state, (p.hold d w).asked⟩ := by
  have tried : Dialogue.hold d (ExceptT.run (s.attempt p)) w =
      (p.hold d w).map (Except.mapError (s, ·)) :=
    hold_attempt s p
  rw [Attempt.hold, ExceptT.run_bind, Dialogue.hold_bind, tried]
  cases h : (p.hold d w).outcome <;> simp [h, Attempt.hold]

/-! ### What a start does is what its steps do -/

abbrev bare : Except (Step × Problem) Unit → Except Problem Unit := Except.mapError Prod.snd

theorem hold_mount (s : Settings) (path key : String) (element : Option E) :
    (mount s path key element).hold d w = Transcript.map bare ((Step.mount.attempt do
      return (← Dialogue.request (.mount s.mountId element)).mapError
        (.renderFailed key path)).hold d w) := by
  rw [mount, hold_attempt]
  cases h : (d (.mount s.mountId element) w).1 with
  | error cause => split <;> simp [h]
  | ok u => split <;> simp [h]

theorem hold_renderTarget (s : Settings) (path key : String) (extra : Option Arguments) :
    (renderTarget s path key extra).hold d w =
      ((targetSteps s path key extra).hold d w).map bare := by
  rw [renderTarget, targetSteps, hold_attempt_bind]
  cases hm : (d (.fetch path) w).1 with
  | error cause => simp [hm]
  | ok module =>
    cases hx : (d (.shape module key) (d (.fetch path) w).2).1 with
    | none => simp [hm, hx, hold_attempt_bind]
    | some shape =>
      by_cases hs : shape.renders
      · cases hr :
          (d (.render module key extra) (d (.shape module key) (d (.fetch path) w).2).2).1 with
        | error cause => simp [hm, hx, hs, hr, render, hold_attempt_bind]
        | ok element => simp [hm, hx, hs, hr, render, hold_attempt_bind, hold_mount]
      · simp [hm, hx, hs, hold_attempt_bind]

theorem hold_put (c : ThemeClasses) (t : Theme) :
    Dialogue.hold d (if c.applied = some t then return .ok ()
      else ThemeClasses.setAll (c.changes t)) w =
      ((c.put t).hold d w).map fun r => r.1.map fun _ => () := by
  rw [ThemeClasses.put]
  split
  · rfl
  · rw [Dialogue.hold_bind]
    obtain ⟨problem | ⟨⟩, w, asked⟩ := (ThemeClasses.setAll (c.changes t)).hold d w
    · simp [Except.map]
    · simp [Except.map]

theorem hold_renderConfigured (b : Boot) (c : Config) :
    ((b.renderConfigured c).hold d w).map Prod.fst = ((b.configuredSteps c).hold d w).map bare := by
  rw [renderConfigured, configuredSteps, hold_attempt_bind, hold_put]
  rcases h : (b.classes.put c.theme).hold d w with ⟨⟨problem | fresh, classes⟩, w₁, asked⟩
  · simp [h, Except.map]
  · cases c.target with
    | error problem => simp [h, hold_attempt_bind, Except.map]
    | ok target => simp [h, hold_attempt_bind, hold_renderTarget, Except.map, Transcript.map,
      Transcript.after]

theorem hold_fill (b : Boot) :
    (b.fill.hold d w).map Prod.fst = (b.fillSteps.hold d w).map bare := by
  rw [fill, fillSteps, hold_attempt_bind]
  cases hc : (d (.setInnerHtml b.settings.mountId "") w).1 with
  | error problem => simp [hc]
  | ok u =>
    cases ht : (d (.text b.settings.configId) (d (.setInnerHtml b.settings.mountId "") w).2).1 with
    | none => simp [hc, ht, renderStory, hold_attempt_bind]
    | some text =>
      cases hp : Config.parse text with
      | error problem => simp [hc, ht, hp, renderStory, hold_attempt_bind]
      | ok config => simp [hc, ht, hp, renderStory, hold_attempt_bind, hold_renderConfigured]

/-! ### What steps ask -/

/-- The steps from one on: they write no panel, and they mount once if they all succeed. Else the
step that fails is none before the first, and nothing of a later one was asked. -/
structure Proper (first : Step) (a : Attempt M E α) : Prop where
  quiet : ∀ {W : Type} (d : Document M E W) (w : W), ∀ q ∈ (a.hold d w).asked, q.writesPanel = false
  ends : ∀ {W : Type} (d : Document M E W) (w : W),
    match (a.hold d w).outcome with
    | .ok _ => (a.hold d w).asked.countP Request.mounts = 1
    | .error (s, _) =>
      first.number ≤ s.number ∧ ∀ q ∈ (a.hold d w).asked, ∀ s', q.step? = some s' →
        s'.number ≤ s.number

theorem Proper.step {s next : Step} {p : Dialogue M E (Except Problem α)} {f : α → Attempt M E β}
    (lt : s.number < next.number)
    (own : ∀ {W : Type} (d : Document M E W) (w : W), ∀ q ∈ (p.hold d w).asked, q.step? = some s)
    (hf : ∀ x, Proper next (f x)) : Proper s (s.attempt p >>= f) := by
  have early : s ≠ .mount := by
    rintro rfl
    exact Nat.not_lt.2 next.number_le lt
  -- What the step asks is its own, so it belongs to no later step than the one that fails, be it
  -- this or another.
  have few : ∀ {W : Type} (d : Document M E W) (w : W) (t : Step), s.number ≤ t.number →
      ∀ q ∈ (p.hold d w).asked, ∀ s', q.step? = some s' → s'.number ≤ t.number := by
    intro W d w t ht q hq s' hs'
    cases (own d w q hq).symm.trans hs'
    exact ht
  constructor
  · intro W d w
    have head : ∀ q ∈ (p.hold d w).asked, q.writesPanel = false :=
      fun q hq => by simp [Request.writesPanel, own d w q hq]
    rw [hold_attempt_bind]
    split
    · exact fun q hq => (List.mem_append.1 hq).elim (head q) ((hf _).quiet d _ q)
    · exact head
  · intro W d w
    rw [hold_attempt_bind]
    cases (p.hold d w).outcome with
    | error e => exact ⟨Nat.le_refl _, few d w s (Nat.le_refl _)⟩
    | ok x =>
      have rest := (hf x).ends d (p.hold d w).state
      simp only [Transcript.after_outcome, Transcript.after_asked, List.countP_append]
      cases h : ((f x).hold d (p.hold d w).state).outcome with
      | ok y =>
        simp only [h] at rest
        rw [rest, List.countP_eq_zero.2 fun q hq =>
          by simpa [Request.mounts, own d w q hq] using early]
      | error e =>
        simp only [h] at rest ⊢
        have le := Nat.le_trans (Nat.le_of_lt lt) rest.1
        exact ⟨le, fun q hq => (List.mem_append.1 hq).elim (few d w e.1 le q) (rest.2 q)⟩

theorem proper_mount (s : Settings) (path key : String) (element : Option E) :
    Proper .mount (Step.mount.attempt do
      return (← Dialogue.request (M := M) (.mount s.mountId element)).mapError
        (.renderFailed key path)) := by
  constructor
  · intro W d w
    simp [hold_attempt, Request.writesPanel, Request.step?]
  · intro W d w
    rw [hold_attempt]
    cases h : (d (.mount s.mountId element) w).1 <;> simp [h, Request.step?, Request.mounts]

theorem proper_targetSteps (s : Settings) (path key : String) (extra : Option Arguments) :
    Proper .moduleImport (targetSteps s path key extra : Attempt M E Unit) := by
  refine .step (by decide) ?_ fun module => .step (by decide) ?_ fun shape =>
    .step (by decide) ?_ fun _ =>
    .step (by decide) ?_ fun element => proper_mount s path key element
  all_goals intro W d w
  · simp [Request.step?]
  · cases h : (d (.shape module key) w).1 <;> simp [h, Request.step?]
  · simp
  · simp [Request.step?]

theorem step?_of_mem_setAll (changes : List (Surface × String × Bool)) :
    ∀ q ∈ ((ThemeClasses.setAll changes).hold d w).asked, q.step? = some .themeClasses := by
  induction changes generalizing w with
  | nil => simp [ThemeClasses.setAll]
  | cons c rest ih =>
    obtain ⟨surface, name, on⟩ := c
    intro q hq
    rw [ThemeClasses.setAll, Dialogue.hold_bind, Dialogue.hold_request, Transcript.after_asked]
      at hq
    obtain rfl | hq := List.mem_cons.1 hq
    · rfl
    · cases h : (d (.setClass surface name on) w).1 with
      | error problem => simp [h] at hq
      | ok u => exact ih q (by simpa [h] using hq)

theorem proper_configuredSteps (b : Boot) (c : Config) :
    Proper .themeClasses (b.configuredSteps c : Attempt M E Unit) := by
  refine .step (by decide) ?_ fun _ => .step (by decide) ?_ fun target => proper_targetSteps ..
  all_goals intro W d w
  · split
    · simp
    · exact step?_of_mem_setAll _
  · simp

theorem proper_fillSteps (b : Boot) : Proper .clear (b.fillSteps : Attempt M E Unit) := by
  refine .step (by decide) ?_ fun _ => .step (by decide) ?_ fun text =>
    .step (by decide) ?_ fun config =>
    b.proper_configuredSteps config
  all_goals intro W d w
  · simp [Request.step?]
  · simp [Request.step?]
  · simp

theorem proper_steps (b : Boot) : Proper .mountPoint (b.steps : Attempt M E Unit) :=
  .step (by decide) (fun d w => by simp [Request.step?]) fun _ => b.proper_fillSteps

/-! ### The panel -/

theorem html_ne_empty (p : Panel) : p.html ≠ "" := by
  intro h
  have := congrArg String.length h
  simp [Panel.html, Panel.htmlWith, Panel.opening] at this

theorem step?_panelWrite (s : Settings) (step : Step) (problem : Problem) :
    (panelWrite s step problem : Request M E).step? = none := by
  unfold panelWrite
  split
  · rfl
  · simp [Request.step?, html_ne_empty]

theorem asked_showInMount (s : Settings) (problem : Problem) :
    ((showInMount s problem).hold d w).asked =
      [.setInnerHtml s.mountId (Panel.ofProblem problem).html] := by
  cases h : (d (.setInnerHtml s.mountId (Panel.ofProblem problem).html) w).1
    <;> simp [showInMount, h]

theorem asked_showInBody (problem : Problem) :
    ((showInBody problem).hold d w).asked = [.setBodyHtml (Panel.ofProblem problem).html] := by
  cases h : (d (.setBodyHtml (Panel.ofProblem problem).html) w).1 <;> simp [showInBody, h]

theorem outcome_start (b : Boot) :
    (b.start.hold d w).outcome =
      if (d (.present b.settings.mountId) w).1
        then (b.fill.hold d (d (.present b.settings.mountId) w).2).outcome
      else (.error (.mountMissing b.settings.mountId), b) := by
  cases h : (d (.present b.settings.mountId) w).1 with
  | false => simp [start, h]
  | true =>
    rcases hf : b.fill.hold d (d (.present b.settings.mountId) w).2 with ⟨⟨problem | ⟨⟩, next⟩,
      w₁, asked⟩
    · simp [start, h, hf]
    · simp [start, h, hf]

theorem outcome_writingPanels (b : Boot) (d' : Document M E W) :
    (b.start.hold (writingPanels d d') w).outcome = (b.start.hold d w).outcome := by
  have fill : ∀ w, b.fill.hold (writingPanels d d') w = b.fill.hold d w := by
    intro w
    have asked : (b.fill.hold d w).asked = (b.fillSteps.hold d w).asked :=
      congrArg Transcript.asked b.hold_fill
    refine Dialogue.hold_congr fun q hq w' => ?_
    have quiet := b.proper_fillSteps.quiet d w q (asked ▸ hq)
    simp [writingPanels, quiet]
  rw [outcome_start, outcome_start, fill]
  rfl

/-- A start does what its steps do, and it shows the problem of the one that fails. -/
theorem start_of_steps (b : Boot) :
    match (b.steps.hold d w).outcome with
    | .ok () =>
      (b.start.hold d w).outcome.1 = .ok () ∧ (b.start.hold d w).asked = (b.steps.hold d w).asked
    | .error (s, problem) =>
      (b.start.hold d w).outcome.1 = .error problem ∧
        (b.start.hold d w).asked = (b.steps.hold d w).asked ++
          [panelWrite b.settings s problem] := by
  rw [steps, hold_attempt_bind, outcome_start]
  cases h : (d (.present b.settings.mountId) w).1 with
  | false => simp [start, h, asked_showInBody, panelWrite]
  | true =>
    have fill := b.hold_fill (d := d) (w := (d (.present b.settings.mountId) w).2)
    have ends := b.proper_fillSteps.ends d (d (.present b.settings.mountId) w).2
    rcases hf : b.fill.hold d (d (.present b.settings.mountId) w).2 with ⟨⟨r, next⟩, w₁, asked⟩
    rcases hs : b.fillSteps.hold d (d (.present b.settings.mountId) w).2 with ⟨⟨s, problem⟩ | ⟨⟩,
      w₂, asked₂⟩
    · simp only [hf, hs] at fill ends
      cases fill
      -- The mount was found, so the panel is written there.
      have : s ≠ .mountPoint := by
        rintro rfl
        exact absurd ends.1 (by decide)
      simp [start, h, hf, hs, asked_showInMount, panelWrite, this]
    · simp only [hf, hs] at fill
      cases fill
      simp [start, h, hf, hs]

/-- A program that starts a frame ends as the dialogue of the start with its world does. -/
theorem exec_runWith {B V : Type} (b : Boot) (d : Document M E W) (m : Meaning B V W)
    (g : Graph B V W) : ∃ g', (b.runWith d).exec m g = some ((b.start.hold d g.world).outcome, g') ∧
      g'.world = (b.start.hold d g.world).state := by
  have ends : (b.runWith d).Ends m.same (perform m depthLimit) g fun r g' =>
      r = (b.start.hold d g.world).outcome ∧ g'.world = (b.start.hold d g.world).state := by
    refine Program.ends_within.2 (Program.ends_bind.2 ?_)
    exact (Dialogue.ends_perform b.start).imp fun r g' h =>
      Program.ends_within.2 (Program.ends_done.2 h)
  obtain ⟨r, g', run, rfl, world⟩ := ends
  exact ⟨g', run, world⟩

/-- A start, in a frame of any kind and with whatever classes earlier ones have left, succeeds
exactly if all steps do, and then it mounts once and shows no panel. Else it ends with the problem
of the first step that fails, asks nothing of a later one, and writes one panel, whose fate is of no
consequence. -/
theorem runWith_stops_at_first_failure {B V : Type} (b : Boot) (d : Document M E W)
    (m : Meaning B V W) (g : Graph B V W) :
    let t := b.start.hold d g.world
    (∃ g', (b.runWith d).exec m g = some (t.outcome, g') ∧ g'.world = t.state) ∧
      (t.outcome.1 = .ok () ↔ b.failure? d g.world = none) ∧
      (b.failure? d g.world = none →
        t.asked.countP Request.mounts = 1 ∧ ∀ q ∈ t.asked, q.writesPanel = false) ∧
      (∀ s problem, b.failure? d g.world = some (s, problem) →
        t.outcome.1 = .error problem ∧
        (∀ q ∈ t.asked, ∀ s', q.step? = some s' → s'.number ≤ s.number) ∧
        t.asked.filter Request.writesPanel = [panelWrite b.settings s problem]) ∧
      ∀ d' : Document M E W, (b.start.hold (writingPanels d d') g.world).outcome = t.outcome := by
  intro t
  have quiet := b.proper_steps.quiet d g.world
  have ends := b.proper_steps.ends d g.world
  have start := b.start_of_steps (d := d) (w := g.world)
  refine ⟨b.exec_runWith d m g, ?_⟩
  cases h : (b.steps.hold d g.world).outcome with
  | ok u =>
    have none : b.failure? d g.world = none := by simp only [failure?, h]
    simp only [h] at start ends
    have asked : t.asked = (b.steps.hold d g.world).asked := start.2
    rw [none, asked]
    exact ⟨⟨fun _ => rfl, fun _ => start.1⟩, fun _ => ⟨ends, quiet⟩, nofun, b.outcome_writingPanels⟩
  | error failure =>
    obtain ⟨s, problem⟩ := failure
    have failed : b.failure? d g.world = some (s, problem) := by simp only [failure?, h]
    simp only [h] at start ends
    have outcome : t.outcome.1 = .error problem := start.1
    have asked : t.asked = (b.steps.hold d g.world).asked ++ [panelWrite b.settings s problem] :=
      start.2
    rw [failed, asked, outcome]
    refine ⟨⟨nofun, nofun⟩, nofun, ?_, b.outcome_writingPanels⟩
    rintro s problem ⟨⟩
    refine ⟨rfl, ?_, ?_⟩
    · intro q hq s' hs'
      obtain hq | hq := List.mem_append.1 hq
      · exact ends.2 q hq s' hs'
      · cases List.mem_singleton.1 hq
        cases (step?_panelWrite b.settings s problem).symm.trans hs'
    · rw [List.filter_append, List.filter_eq_nil_iff.2 fun q hq => by simp [quiet q hq]]
      simp [Request.writesPanel, step?_panelWrite]

end Boot
end StoryPreview
