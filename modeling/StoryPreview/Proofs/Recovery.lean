import StoryPreview.Proofs.Runs
/-!
What the managed frame shows when a cycle has bound its story. The source of the frame is assigned
unless it leads to the address already; so a document that an earlier cycle has put into the frame
stays there exactly if the source under it happens to lead to the new address.
-/
namespace StoryPreview
open Reactive Program

namespace Page
variable {p : Page} {f : FrameId} {a : Address}

/-- What was written to a frame last is a source that is as good as an address: its text, or one
that leads there. -/
def Shows (p : Page) (f : FrameId) (a : Address) : Prop :=
  ∃ src, p.content? f = some (.source src) ∧
    (src = a.text ∨ a.isSource (p.srcBase ++ src) p.origin = .ok true)

/-- What was written to a frame last is a document, and its source leads to an address all the
same. -/
def Covers (p : Page) (f : FrameId) (a : Address) : Prop :=
  (∃ html, p.content? f = some (.document html)) ∧ a.isSource (p.sourceOf f) p.origin = .ok true

instance : Decidable (∃ html, p.content? f = some (.document html)) :=
  match p.content? f with
  | some (.document html) => .isTrue ⟨html, rfl⟩
  | some (.source _) | none => .isFalse fun ⟨_, h⟩ => by cases h

instance : Decidable (p.Covers f a) := inferInstanceAs (Decidable (_ ∧ _))
theorem content?_other {c : Call} (hk : c.kind ≠ .setSrc) (hd : c.kind ≠ .setSrcdoc) :
    (p.call c).2.content? f = p.content? f := by
  rcases call_cases p c with ⟨he, -⟩ | ⟨he, -⟩
  · rw [he, content?_note, content?_obey]
    cases c with
    | setSrc g src => exact absurd rfl hk
    | setSrcdoc g html => exact absurd rfl hd
    | _ => rfl
  · rw [he, content?_note]
    cases c <;> rfl

theorem withArguments_content (p : Page) (args : Arguments) :
    (p.withArguments args).content? f = p.content? f := by
  unfold withArguments
  split
  · rfl
  · exact content?_other (by simp [Call.kind]) (by simp [Call.kind])

/-- A frame that is led to an address shows it, if anything was ever written to it, unless a
document covers it. -/
theorem shows_ledTo (h : p.Framed) (hf : f < p.frames.length) (a : Address) :
    ((p.ledTo f a p.origin).content? f = none ∨ (p.ledTo f a p.origin).Shows f a) ↔
    ¬ p.Covers f a := by
  unfold ledTo
  split
  · rename_i there
    -- The source stays, so what was written last stays too.
    constructor
    · rintro (none | ⟨src, hs, -⟩) ⟨⟨html, document⟩, -⟩
      · rw [document] at none
        cases none
      · rw [document] at hs
        cases hs
    · intro uncovered
      cases hc : p.content? f with
      | none => exact .inl rfl
      | some x =>
        cases x with
        | source src =>
          refine .inr ⟨src, hc, .inr ?_⟩
          rw [← h.shown hf hc]
          exact there
        | document html => exact absurd ⟨⟨html, hc⟩, there⟩ uncovered
  · rename_i elsewhere
    have assigned : (p.call (.setSrc f a.text)).2.content? f = some (.source a.text) := by
      rw [content?_call_allowed h.allowed]
      simp [Deed.content?]
    exact ⟨fun _ covers => elsewhere covers.2, fun _ => .inr ⟨a.text, assigned, .inl rfl⟩⟩

theorem Covers.congr {q : Page} (hc : q.content? f = p.content? f)
    (hs : q.sourceOf f = p.sourceOf f) (ho : q.origin = p.origin) :
    q.Covers f a ↔ p.Covers f a := by
  rw [Covers, Covers, hc, hs, ho]

end Page

namespace App

def Step.IsCycle : Step → Prop
  | .use .visit | .use (.start _) | .resume _ => True
  | _ => False

namespace Desk
variable {φ : Aspect → Prop} {d : Desk} {g g' : System}

/-- What a cycle has bound shows, if its frame was ever written to, unless a document covered it
before. -/
theorem Goes.shows {cycle : Controller.Cycle} {p : Controller.Progress} (h : d.Goes φ cycle g p g')
    (hφ : φ .frames) (hu : d.Underway φ g) (hp : p = .ended .bound) :
    ∃ a, g'.world.address = some a ∧
      ∀ f, g'.world.session.managed = some f →
        ((g'.world.page.content? f = none ∨ g'.world.page.Shows f a) ↔
          ¬ g.world.page.Covers f a) := by
  cases h with
  | held held reports => cases hp
  | failed held loaded underway generation page => cases hp
  | bound held loaded sound binds =>
    rename_i defaults names
    obtain ⟨framed, managed⟩ := hu.frames hφ
    obtain ⟨b, world⟩ := binds.world
    let args := Controller.startingWith defaults g.world.page
    have reaches := Page.Reaches.withArguments g.world.page args
    refine ⟨(d.route (cycle.story defaults g.cells.length) g.world.page.origin).address g'.value,
      ?_, fun f hm => ?_⟩
    · rw [world]
      exact Preview.ledTo_address
    · have hm' : g.world.session.managed = some f := by
        rw [world] at hm
        exact (Preview.Follows.ledTo { g.world with page := g.world.page.withArguments args } _
          _).session ▸ hm
      have page : g'.world.page = (g.world.page.withArguments args).ledTo f
          ((d.route (cycle.story defaults g.cells.length) g.world.page.origin).address g'.value)
          (g.world.page.withArguments args).origin := by
        rw [world, reaches.setting.origin]
        simp only [Preview.ledTo, hm', args]
      rw [page, Page.shows_ledTo (framed.reaches reaches)
        (by rw [reaches.setting.frames]; exact managed f hm'),
        Page.Covers.congr (Page.withArguments_content _ _) (Page.withArguments_frames _ _ f)
          reaches.setting.origin]

theorem Started.shows {p : Controller.Progress} (h : d.Started φ g p g') (hφ : φ .frames)
    (hp : p = .ended .bound) :
    ∃ a, g'.world.address = some a ∧ ∀ f, g'.world.session.managed = some f →
      ((g'.world.page.content? f = none ∨ g'.world.page.Shows f a) ↔
        ¬ g.world.page.Covers f a) := by
  cases h with
  | refused plan ho underway generation page => exact absurd (Controller.Progress.ended.inj hp) ho
  | begun plan token underway values length world goes =>
    obtain ⟨a, ha, shows⟩ := goes.shows hφ underway hp
    refine ⟨a, ha, fun f hm => ?_⟩
    rw [shows f hm, world]
    exact not_congr (Page.Covers.congr (Page.content?_note ..) rfl rfl)

/-- A step that gives a bound story leaves it showing, unless a document covers it. -/
theorem Sound.step_shows (h : d.Sound φ g) (hφ : φ .frames) {x : Step} (hx : x.IsCycle) :
    (d.step x).Done g fun r g' => r.1 = .ended .bound → ∃ a, g'.world.address = some a ∧
      ∀ f, g'.world.session.managed = some f →
        ((g'.world.page.content? f = none ∨ g'.world.page.Shows f a) ↔
          ¬ g.world.page.Covers f a) := by
  cases x with
  | use u =>
    simp only [Desk.step, Action.Done, ends_bind, Action.ends_state]
    split
    · cases u with
      | visit =>
        refine ends_bind.2 (h.start.imp fun p g' started => ?_)
        split
        · exact ends_pure.2 fun hr => by cases hr
        · exact ends_pure.2 fun hr => started.shows hφ (by rw [Reply.ended.inj hr])
      | start name =>
        refine ends_bind.2 ((h.without name).start.imp fun p g' started => ends_pure.2 fun hr => ?_)
        cases p with
        | pending c => cases hr
        | ended o => exact started.shows hφ (by rw [Reply.ended.inj hr])
      | _ => exact hx.elim
    · exact ends_pure.2 fun hr => by cases hr
  | resume name =>
    simp only [Desk.step]
    split
    · exact ends_pure.2 fun hr => by cases hr
    · rename_i c hc
      refine ends_bind.2 ((h.resume hc).imp fun p g' resumed => ends_pure.2 fun hr => ?_)
      cases p with
      | pending c => cases hr
      | ended o =>
        cases resumed with
        | stale stale hp reports =>
          split at hp
          · cases hp
          · rw [Controller.Progress.ended.inj hp] at hr
            cases hr
        | current current underway managed goes =>
          exact goes.shows hφ underway (by rw [Reply.ended.inj hr])
  | _ => exact hx.elim

/-- In every run in which nobody else writes the sources of frames and these can be written: when a
cycle has bound its story, the last content that was written to the managed frame, if any, is a
source as good as the current address, unless a document was the last and the source under it leads
there already. -/
theorem shows_of_bound (s : Settings) {p : Page} (hp : p.Fresh (· = .frames)) (steps : List Step)
    (hs : ∀ x ∈ steps, x.Leaves p.frames.length .frames) {x : Step} (hx : x.IsCycle) :
    ∃ replies d g, App.perform (life s steps) p.blank = some ((replies, d), g) ∧
      ∃ reply d' g', App.perform (d.step x) g = some ((reply, d'), g') ∧ (reply = .ended .bound →
        ∃ a, g'.world.address = some a ∧ ∀ f, g'.world.session.managed = some f →
          ((g'.world.page.content? f = none ∨ g'.world.page.Shows f a) ↔
            ¬ g.world.page.Covers f a)) := by
  obtain ⟨⟨replies, d⟩, g, run, sound, -⟩ := life_sound hp s steps fun y hy a ha => ha ▸ hs y hy
  obtain ⟨⟨reply, d'⟩, g', run', shows⟩ := sound.step_shows rfl hx
  exact ⟨replies, d, g, run, reply, d', g', run', shows⟩

/-- A visit that binds its story, one that cannot for want of the module, and the module back
again. -/
def relapse : List Step :=
  [.use .visit, .page (.module "/s.js" none), .use .visit,
    .page (.module "/s.js" ((Page.sample "" (.object [])).modules.get? "/s.js"))]

/-- Steps with the sample of which the first binds the story and the last cycle fails. Another visit
binds the story again, and the frame shows it unless it is covered. -/
def Rebinds (steps : List Step) (covered : Bool) : Prop :=
  ∃ replies d g, App.perform (life {} steps) (Page.sample Config.sample (.object [])).blank =
      some ((replies, d), g) ∧
    replies.head?.map Reply.isBound = some true ∧ g.world.status = .failed ∧
    ∃ d' g', App.perform (d.step (.use .visit)) g = some ((.ended .bound, d'), g') ∧
      ∃ a, g'.world.address = some a ∧ (g.world.page.Covers 0 a ↔ covered = true) ∧
        (g'.world.page.Shows 0 a ↔ covered = false)

/-- What the next visit of the sample finds after some steps: the first reply, the status, the
managed frame, and whether the visit binds, the frame was covered, and it has been written to. -/
def revisit (steps : List Step) : Option (Option Bool × Status × Option FrameId × List Bool) :=
  (App.perform (life {} steps) (Page.sample Config.sample (.object [])).blank).bind fun r =>
    (App.perform (r.1.2.step (.use .visit)) r.2).bind fun r' => r'.2.world.address.map fun a =>
      (r.1.1.head?.map Reply.isBound, r.2.world.status, r'.2.world.session.managed,
        [r'.1.1.isBound, decide (r.2.world.page.Covers 0 a), (r'.2.world.page.content? 0).isSome])

theorem shows_of_bound_relapse :
    Rebinds relapse true ∧ Rebinds (relapse ++ [.setTheme .dark]) false := by
  have rebinds (steps : List Step) (covered : Bool) (leaves : ∀ x ∈ steps, x.Leaves 1 .frames)
      (seen : revisit steps = some (some true, .failed, some 0, [true, covered, true])) :
      Rebinds steps covered := by
    obtain ⟨replies, d, g, run, reply, d', g', run', shows⟩ :=
      shows_of_bound {} (Page.sample_fresh _ Config.sample (.object [])) steps leaves
        (x := .use .visit) trivial
    simp only [revisit, run, run', Option.bind_some] at seen
    obtain ⟨a, ha, seen⟩ := Option.map_eq_some_iff.1 seen
    simp only [Prod.mk.injEq, List.cons.injEq, and_true] at seen
    obtain ⟨first, failed, managed, bound, covers, written⟩ := seen
    have hr := Reply.eq_of_isBound bound
    obtain ⟨a', ha', ends⟩ := shows hr
    obtain rfl := Option.some.inj (ha.symm.trans ha')
    have before : g.world.page.Covers 0 a ↔ covered = true := by rw [← covers, decide_eq_true_iff]
    have after : g'.world.page.Shows 0 a ↔ ¬ g.world.page.Covers 0 a := by
      rw [← ends 0 managed, or_iff_right]
      intro none
      rw [none] at written
      cases written
    refine ⟨replies, d, g, run, first, failed, d', g', hr ▸ run', a, ha, before, ?_⟩
    rw [after, before, Bool.not_eq_true]
  have leaves : ∀ x ∈ relapse, x.Leaves 1 .frames := by simp [relapse, Step.Leaves]
  refine ⟨rebinds _ _ leaves (by decide +kernel), rebinds _ _ (fun x hx => ?_) (by decide +kernel)⟩
  rcases List.mem_append.1 hx with hx | hx
  · exact leaves x hx
  · obtain rfl := List.mem_singleton.1 hx
    trivial

end Desk
end App
end StoryPreview
