import StoryPreview.Settings.Basic
import StoryPreview.Proofs.Consistency
import StoryPreview.Proofs.Duties
import StoryPreview.Proofs.Url.Relative
/-!
Which addresses are recognized once they were assigned. An address is compared by its path as the
source of the frame reads it, and its path is assigned as it is put together of prefix, component
and key. So the address of a story is recognized exactly if a URL keeps its path; else it is
assigned again at every turn.
-/
namespace StoryPreview
open Reactive Program

namespace Address
variable {origin : String}

/-- An address whose path starts with a slash is recognized in its own text exactly if a URL keeps
the path. -/
theorem isSource_text_iff (a : Address) (ho : Url.WebOrigin origin)
    (slash : a.path.toList.head? = some '/') :
    a.isSource a.text origin = .ok true ↔ Url.KeptPath a.path.toList := by
  obtain ⟨scheme, authority, h⟩ := ho
  obtain ⟨rest, path⟩ := List.head?_eq_some_iff.1 slash
  have text : a.text.toList = '/' :: (rest ++ '?' :: Form.write a.params) := by
    rw [text_toList, path, List.cons_append]
  have ne : a.text ≠ "" := by
    rw [Ne, ← String.toList_inj, text]
    exact List.cons_ne_nil _ _
  have located : locate a.text origin = Url.join (Url.rootOf scheme) a.text := by
    simp only [locate, if_neg ne, Url.parse_slash text, h.parse_eq]
    rfl
  have taken := Url.join_path_iff h.ofScheme_eq slash (queryText_write a.params) a.text_toList
  rw [isSource, located]
  constructor
  · intro recognized
    refine taken.1 ?_
    cases joined : Url.join (Url.rootOf scheme) a.text with
    | error fault => simp [joined, Except.map] at recognized
    | ok u =>
      have here : a.isAt u = true := by simpa [joined, Except.map] using recognized
      simp only [isAt, Bool.and_eq_true, decide_eq_true_eq] at here
      exact ⟨u, rfl, by rw [← here.1, String.toList_ofList]⟩
  · intro kept
    rw [Url.join_kept h.ofScheme_eq kept (queryText_write a.params) a.text_toList, Except.map,
      isAt_placed]
    simp

theorem head_storyPath {start : String} (h : Settings.prefixIssue? start = none)
    (component : String) (key : Option String) :
    (storyPath start component key).toList.head? = some '/' := by
  have slash : ∃ rest, start.toList = '/' :: rest := by
    unfold Settings.prefixIssue? at h
    split at h
    · exact ⟨_, ‹_›⟩
    · cases h
  obtain ⟨rest, slash⟩ := slash
  simp only [storyPath, slash, String.toList_append, String.toList_ofList, List.append_assoc]
  rcases Text.dropEndWhile_cons (· == '/') '/' rest with none | ⟨front, some⟩
  · rw [none]
    rfl
  · rw [some]
    rfl

end Address

theorem Settings.prefix_of_issues {s : Settings} (h : s.issues = []) :
    prefixIssue? s.contentPrefix = none := by
  simp only [issues, List.append_eq_nil_iff] at h
  simpa using h.1.2

/-- A frame that has the text of an address as its source is left alone, or the address is assigned
to it once more. -/
theorem Page.ledTo_of_sourceOf {p : Page} {frame : FrameId} {a : Address} {origin : String}
    (h : p.sourceOf frame = a.text) :
    p.ledTo frame a origin =
      if a.isSource a.text origin = .ok true then p else (p.call (.setSrc frame a.text)).2 := by
  unfold ledTo
  rw [h]
  split
  · rename_i recognized
    rw [if_pos recognized]
  · rename_i lost
    rw [if_neg lost]

namespace Address

/-- The address of a story is recognized in its own text exactly if a URL keeps its path as it
stands. A frame that has it as its source is left alone exactly then; else the same address is
assigned to the frame again. -/
theorem assigned_is_recognized_iff {s : Settings} (h : s.issues = []) (component key mode : String)
    (theme : Theme) (args : Arguments) :
    let a := forStory s.contentPrefix component (some key) mode theme args
    (a.isSource a.text "http://localhost:8080" = .ok true ↔ Url.KeptPath a.path.toList) ∧
    ∀ (same : Signal → Signal → Bool) (perform :
      Doer Duty Signal Preview) (g : System) (frame : FrameId),
      g.world.page.sourceOf frame = a.text →
        (Controller.lead frame a "http://localhost:8080").Ends same perform g fun _ g' =>
          g'.world = if Url.KeptPath a.path.toList then g.world
            else { g.world with page := (g.world.page.call (.setSrc frame a.text)).2 } := by
  intro a
  have slash : a.path.toList.head? = some '/' := by
    rw [forStory_path]
    exact head_storyPath (Settings.prefix_of_issues h) component (some key)
  have recognized := isSource_text_iff a Url.webOrigin_localhost slash
  refine ⟨recognized, fun same perform g frame source => ?_⟩
  refine Controller.lead_ends.imp fun _ g' led => ?_
  rw [led.2.2, Page.ledTo_of_sourceOf source]
  simp only [recognized]
  split
  · rfl
  · rfl

/-- A blank in the name of a component: the source leads to a path with an escape, and is not
recognized. -/
theorem assigned_is_recognized_iff_blank :
    let a := forStory ({} : Settings).contentPrefix "My Button" (some "Primary") "csr" .light
        (.ofEntries [("label", .text "Click")])
    a.isSource a.text "http://localhost:8080" ≠ .ok true := by
  intro a
  have lost : ¬Url.KeptPath a.path.toList := by decide +kernel
  exact fun recognized =>
    lost ((assigned_is_recognized_iff (s := {}) (by decide +kernel) "My Button"
      "Primary" "csr" .light (.ofEntries [("label", .text "Click")])).1.1 recognized)

end Address
end StoryPreview
