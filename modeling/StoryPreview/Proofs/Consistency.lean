import StoryPreview.Proofs.Runs
/-!
While a story is bound, the state of the preview, the page and the frame say the same: the current
address is that of the story with the theme and the arguments as they are, the location has the
arguments, and the managed frame shows the address.
-/
namespace StoryPreview
open Reactive Program

theorem Address.setParam_path (a : Address) (name value : String) :
    (a.setParam name value).path = a.path := rfl

theorem Address.forStory_path (start component : String) (key : Option String) (mode : String)
    (theme : Theme) (args : Arguments) :
    (forStory start component key mode theme args).path = storyPath start component key := by
  have keep (es : Entries Argument) (a : Address) :
      (es.foldl (fun a (x : String × Argument) => a.setParam x.1 x.2.display) a).path = a.path := by
    induction es generalizing a with
    | nil => rfl
    | cons e es ih => exact (ih _).trans (setParam_path ..)
  exact keep args.entries _

namespace App.Desk

def themeIn (d : Desk) (g : System) : Theme := (g.value d.app.theme.cell).asTheme

def argumentsIn (story : BoundStory) (g : System) : Arguments :=
  (g.value story.arguments).asArguments

def addressIn (d : Desk) (story : BoundStory) (g : System) : Address :=
  .forStory d.app.controller.settings.contentPrefix story.component (some story.key)
    story.mode (d.themeIn g) (argumentsIn story g)

/-- A story is bound for a frame, and state, location and frame agree on its address and its
arguments. That the location has them is a matter of keys that can stand in a query, and that the
frame shows the address one of an origin of the web and a plain path. -/
structure Consistent (d : Desk) (g : System) (story : BoundStory) (frame : FrameId) : Prop where
  bound : g.world.bound = some story
  managed : g.world.session.managed = some frame
  address : g.world.address = some (d.addressIn story g)
  location : Location.CleanKeys (argumentsIn story g) →
    g.world.page.location.urlWith (argumentsIn story g) = g.world.page.location.url
  source : Url.WebOrigin g.world.page.origin →
    g.world.page.srcBase = "" ∨ g.world.page.srcBase = g.world.page.origin →
    Url.PlainPath (Address.storyPath d.app.controller.settings.contentPrefix story.component
      (some story.key)).toList →
    (d.addressIn story g).isSource (g.world.page.sourceOf frame) g.world.page.origin = .ok true

variable {φ : Aspect → Prop} {d : Desk} {g : System}

/-- A sound desk whose page nobody has disturbed is consistent when its status is bound. -/
theorem Sound.consistent (h : d.Sound φ g) (hφ : ∀ a, φ a) (hopen : g.world.isOpen = true)
    (hs : g.world.status = .bound) : ∃ story frame, d.Consistent g story frame := by
  rcases h.standing with free | ⟨b, story, bound⟩
  · exact absurd free.bindings (h.attended.status hopen hs)
  obtain ⟨frame, managed⟩ := bound.managed (hφ _)
  refine ⟨story, frame, bound.bound, managed, bound.current, bound.located (hφ _),
    fun ho hb hp => ?_⟩
  refine bound.framed (hφ _) frame managed ho hb ?_
  exact (Address.forStory_path ..).symm ▸ hp

/-- In every run in which nobody else changes the location, the frames or the session, and these can
be written, the preview is consistent whenever its status is bound. -/
theorem consistent_of_bound (s : Settings) {p : Page} (hp : p.Fresh fun _ => True)
    (steps : List Step) (hs : ∀ x ∈ steps, ∀ a, x.Leaves p.frames.length a) :
    ∃ replies d g, App.perform (life s steps) p.blank = some ((replies, d), g) ∧
      d.app.controller.settings = s ∧ p.SamePlace g.world.page ∧
      (g.world.isOpen = true → g.world.status = .bound →
        ∃ story frame, d.Consistent g story frame) := by
  obtain ⟨⟨replies, d⟩, g, run, sound, settings, place⟩ := life_sound hp s steps fun x hx a _ =>
    hs x hx a
  exact ⟨replies, d, g, run, settings, place,
    fun ho hb => sound.consistent (fun _ => trivial) ho hb⟩

/-- A visit of the sample, an edit of its argument and a change of the theme. -/
def edited : Option ((List Reply × Desk) × System) :=
  App.perform (life {} [.use .visit, .use (.edit "label" (.text "Send it")), .use .toggleTheme])
    (Page.sample Config.sample (.object [("label", .string "Click")])).blank

theorem consistent_of_bound_edited : ∃ replies d g story,
    edited = some ((replies, d), g) ∧ d.Consistent g story 0 ∧
    d.themeIn g = .dark ∧ (argumentsIn story g).entries = [("label", .text "Send it")] ∧
    g.world.page.location.url = "/?args=label:Send%20it" ∧
    g.world.page.location.urlWith (argumentsIn story g) = g.world.page.location.url ∧
    g.world.page.sourceOf 0 =
      "/sandbox-content/Button/Primary?renderMode=csr&theme=dark&label=Send+it" ∧
    (d.addressIn story g).isSource (g.world.page.sourceOf 0) g.world.page.origin = .ok true := by
  obtain ⟨replies, d, g, run, settings, -, consistent⟩ :=
    consistent_of_bound {} (Page.sample_fresh _ Config.sample
      (.object [("label", .string "Click")]))
      [.use .visit, .use (.edit "label" (.text "Send it")), .use .toggleTheme] fun x hx a => by
        simp only [List.mem_cons, List.not_mem_nil, or_false] at hx
        obtain rfl | rfl | rfl := hx <;> cases a <;> trivial
  replace run : edited = _ := run
  obtain ⟨state, bound, page⟩ :
      (edited.map fun r => (r.2.world.isOpen, r.2.world.status, r.2.world.session.managed,
        r.1.2.themeIn r.2)) = some (true, .bound, some 0, .dark) ∧
      (edited.map fun r => r.2.world.bound.map fun story =>
        ([story.component, story.key], (argumentsIn story r.2).entries)) =
          some (some (["Button", "Primary"], [("label", .text "Send it")])) ∧
      (edited.map fun r => [r.2.world.page.location.url, r.2.world.page.sourceOf 0,
        r.2.world.page.srcBase, r.2.world.page.origin]) =
          some ["/?args=label:Send%20it",
            "/sandbox-content/Button/Primary?renderMode=csr&theme=dark&label=Send+it", "",
            "http://localhost:8080"] := by decide +kernel
  rw [run] at state bound page
  simp only [Option.map_some, Option.some.injEq, Prod.mk.injEq, List.cons.injEq, and_true]
    at state bound page
  obtain ⟨opened, status, managed, theme⟩ := state
  obtain ⟨url, source, base, origin⟩ := page
  obtain ⟨story, frame, h⟩ := consistent opened status
  obtain rfl : frame = 0 := Option.some.inj (h.managed.symm.trans managed)
  simp only [h.bound, Option.map_some, Option.some.injEq, Prod.mk.injEq, List.cons.injEq, and_true]
    at bound
  obtain ⟨⟨component, key⟩, arguments⟩ := bound
  have clean : Location.CleanKeys (argumentsIn story g) := by
    rw [Location.CleanKeys, OrderedMap.keys, arguments]
    decide
  have path :
      Url.PlainPath (Address.storyPath d.app.controller.settings.contentPrefix story.component
      (some story.key)).toList := by
    rw [settings, component, key]
    exact ⟨["sandbox-content".toList, "Button".toList, "Primary".toList], by decide, by decide,
      by decide⟩
  exact ⟨replies, d, g, story, run, h, theme, arguments, url, h.location clean, source,
    h.source (origin ▸ Url.webOrigin_localhost) (.inl base) path⟩

end App.Desk
end StoryPreview
