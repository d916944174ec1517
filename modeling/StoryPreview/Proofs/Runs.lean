import StoryPreview.Proofs.Steps
/-!
Runs of a preview, from a page on which nothing has been done. Every run comes to an end, and at its
end the desk is sound in those aspects of the page that no step has disturbed.
-/
namespace StoryPreview
open Reactive Program
namespace App.Desk

def opened (s : Settings) : Action Desk := do
  return { app := ← App.create s }

def run (d : Desk) : List Step → Action (List Reply × Desk)
  | [] => return ([], d)
  | s :: steps => do
    let (reply, d) ← d.step s
    let (replies, d) ← d.run steps
    return (reply :: replies, d)

def life (s : Settings) (steps : List Step) : Action (List Reply × Desk) := do
  (← opened s).run steps

end App.Desk

namespace App.Reply

def isBound : Reply → Bool
  | .ended .bound => true
  | _ => false

theorem eq_of_isBound {r : Reply} (h : r.isBound = true) : r = .ended .bound := by
  unfold isBound at h
  split at h
  · rfl
  · cases h

end App.Reply

def Page.blank (p : Page) : System := { world := { page := p } }

/-- A page for a preview to begin with. Where the location matters it is well-formed and can be
replaced; where frames matter they are where they are said to be, their sources can be assigned, and
nothing has been done. -/
structure Page.Fresh (φ : Aspect → Prop) (p : Page) : Prop where
  location : φ .location → p.allowance .replaceUrl = none ∧ p.location.WellFormed
  frames : φ .frames → p.allowance .setSrc = none ∧ p.deeds = [] ∧
    ∀ {id : String} {f : FrameId}, (id, f) ∈ p.frameIds → f < p.frames.length

def Page.sample (config : String) (declared : Json) : Page :=
  { frames := [{}]
    frameIds := [("sandbox-iframe", 0)]
    texts := [("sandbox-config", config)]
    location := ⟨"/", "", ""⟩
    origin := "http://localhost:8080"
    modules := [("/s.js", .exports [("Primary", ⟨some declared, none⟩)])] }

def Config.sample : String :=
  "\x7b\"componentName\":\"Button\",\"storyModulePath\":\"/s.js\",\"storyKey\":\"Primary\"\x7d"

theorem Page.sample_fresh (φ : Aspect → Prop) (config : String) (declared : Json) :
    (sample config declared).Fresh φ where
  location := by
    have start : Location.WellFormed ⟨"/", "", ""⟩ := ⟨by simp, .inl rfl, .inl rfl⟩
    exact fun _ => ⟨rfl, start⟩
  frames := fun _ => ⟨rfl, rfl, fun {id f} hf => by
    obtain ⟨-, rfl⟩ := Prod.mk.inj (List.mem_singleton.1 hf)
    exact Nat.zero_lt_one⟩

namespace App.Desk
variable {φ : Aspect → Prop} {d : Desk} {g : System} {Q : List Reply × Desk → System → Prop}

theorem done_run_nil : (d.run []).Done g Q ↔ Q ([], d) g := ends_pure

theorem done_run_cons {s : Step} {steps : List Step} : (d.run (s :: steps)).Done g Q ↔
    (d.step s).Done g fun r g' => (r.2.run steps).Done g' fun r' g'' =>
      Q (r.1 :: r'.1, r'.2) g'' := by
  simp only [run, Action.Done, ends_bind, ends_pure]

theorem done_life {s : Settings} {steps : List Step} : (life s steps).Done g Q ↔
    (opened s).Done g fun d g' => (d.run steps).Done g' Q := by
  simp only [life, Action.Done, ends_bind]

theorem read_done (kind : Signal.Kind) (key : String) : (Stored.read? kind key).Done g fun _ g' =>
    g.SameParts g' ∧ g'.scopes = g.scopes ∧
      ∃ storage, g'.world = { g.world with page := { g.world.page with storage := storage } } := by
  refine Stored.readWith?_ends.imp ?_
  rintro _ _ ⟨-, ns, rfl⟩
  refine ⟨⟨by simp, by simp, by simp⟩, by simp, (g.world.page.storage.load key).2, ?_⟩
  rw [Graph.recordAll_world]
  rfl

theorem blank_wired (p : Page) : App.calm.Wired none p.blank := by
  constructor <;> intros <;> simp_all [Page.blank]

/-- A preview without effects in which nothing is bound. -/
theorem Sound.of_blank (rigged : d.Rigged g) (effects : g.effects = []) (cycles : d.cycles = [])
    (location : φ .location → g.world.page.Located) (frames : φ .frames → g.world.page.Framed)
    (world : g.world = { page := g.world.page }) : d.Sound φ g where
  rigged := rigged
  attended :=
    { distinct := by
        rw [cycles]
        exact .nil
      cycles := ⟨"", fun hc => by
        rw [cycles] at hc
        cases hc⟩
      location := location
      frames := fun hl => ⟨frames hl, fun f hf => by
        rw [world] at hf
        cases hf⟩
      status := fun _ hs => by
        rw [world] at hs
        cases hs }
  standing := by
    refine .inl ⟨by rw [world], by rw [world], by rw [world], fun hr => ?_⟩
    obtain ⟨x, hx, -⟩ := hr
    rw [effects] at hx
    cases hx

theorem opened_sound {p : Page} (h : p.Fresh φ) (s : Settings) : (opened s).Done p.blank fun d g =>
    d.Sound φ g ∧ d.app.controller.settings = s ∧ p.SamePlace g.world.page := by
  simp only [opened, App.create, Stored.create, Stored.createWith, Toolbar.create, Action.Done,
    ends_bind]
  refine (read_done _ _).imp ?_
  rintro first g₁ ⟨parts₁, scopes₁, storage, world₁⟩
  refine Stored.write_ends.imp ?_
  rintro _ g₂ ⟨parts₂, scopes₂, world₂⟩
  simp only [ends_create, ends_subscribe, ends_done, ends_pure]
  have cells : g₂.cells = [] := parts₂.cells.trans parts₁.cells
  have listeners : g₂.listeners = [] := parts₂.listeners.trans parts₁.listeners
  have effects : g₂.effects = [] := parts₂.effects.trans parts₁.effects
  have wired : App.calm.Wired none g₂ := parts₂.wired (parts₁.wired (blank_wired p))
  generalize first.getD (.theme s.defaultTheme) = v at *
  let q : Page := { p with storage := storage }
  have page : g₂.world.page = (q.store s.themeStorageKey v.toJson.text).2 := by
    rw [world₂, world₁]
    rfl
  have reaches : q.Reaches g₂.world.page := by
    rw [page]
    exact .store .refl _ _
  have rest : g₂.world = { page := g₂.world.page } := by
    rw [world₂, world₁]
    rfl
  refine ⟨Sound.of_blank ?_ effects rfl (fun hl => ?_) (fun hl => ?_) rest, trivial, ?_⟩
  · refine ⟨?_, scopes₂.trans scopes₁, rfl, rfl, ?_, ?_,
      ⟨{ reaction := .call (.store s.themeStorageKey) }, .store s.themeStorageKey, ?_, rfl⟩,
      fun {name c} hk => (by cases hk), fun {name e} hk => (by cases hk)⟩
    · refine ((wired.addCell v).subscribe g₂.cells.length
        (.call (.store s.themeStorageKey)) ?_).addCell _
      intro e epoch he
      cases he
    · simp [Graph.addCell, Graph.subscribe, cells]
    · simp [Graph.addCell, Graph.subscribe, cells]
    · simp [Graph.addCell, Graph.subscribe, listeners]
  · exact Page.Located.reaches (p := q) ⟨(h.location hl).1, (h.location hl).2⟩ reaches
  · exact Page.Framed.reaches (p := q) (Page.framed_of_fresh (h.frames hl).1 (h.frames hl).2.2
      (h.frames hl).2.1) reaches
  · exact ⟨reaches.setting.frames, reaches.setting.origin, reaches.setting.srcBase⟩

/-- A run that leaves aspects of the page alone comes to an end and leaves the desk sound. -/
theorem Sound.run (h : d.Sound φ g) {n : Nat} (hn : g.world.page.frames.length = n)
    {steps : List Step} (hs : ∀ s ∈ steps, ∀ a, φ a → s.Leaves n a) :
    (d.run steps).Done g fun r g' =>
      r.2.Sound φ g' ∧ r.2.app = d.app ∧ g.world.page.SamePlace g'.world.page := by
  induction steps generalizing d g with
  | nil => exact done_run_nil.2 ⟨h, rfl, .refl _⟩
  | cons s steps ih =>
    refine done_run_cons.2 ((h.step s).imp ?_)
    rintro r g₁ ⟨sound, onward⟩
    have kept : r.2.Sound φ g₁ := sound.mono fun a ha => ⟨ha, hn ▸ hs s List.mem_cons_self a ha⟩
    refine (ih kept (onward.page.frames.trans hn) fun s' hs' =>
      hs s' (List.mem_cons_of_mem _ hs')).imp ?_
    rintro r' g' ⟨sound', app, page⟩
    exact ⟨sound', app.trans onward.app, onward.page.trans page⟩

/-- A life that leaves aspects of the page alone comes to an end and leaves the desk sound. -/
theorem life_sound {p : Page} (h : p.Fresh φ) (s : Settings) (steps : List Step)
    (hs : ∀ x ∈ steps, ∀ a, φ a → x.Leaves p.frames.length a) :
    (life s steps).Done p.blank fun r g =>
      r.2.Sound φ g ∧ r.2.app.controller.settings = s ∧ p.SamePlace g.world.page := by
  refine done_life.2 ((opened_sound h s).imp ?_)
  rintro d g ⟨sound, settings, page⟩
  refine (sound.run page.frames hs).imp ?_
  rintro r g' ⟨sound', app, page'⟩
  refine ⟨sound', ?_, page.trans page'⟩
  rw [app, settings]

end App.Desk
end StoryPreview
