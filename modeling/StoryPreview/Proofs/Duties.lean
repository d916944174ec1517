import StoryPreview.Proofs.Pages
import StoryPreview.Proofs.Reactive.Calm
/-!
The duties of a preview are calm. What each of them does to the page is given here as a function of
the values of the cells, next to the program that does it.
-/
namespace StoryPreview
open Reactive Program

def Preview.ledTo (s : Preview) (address : Address) (origin : String) : Preview :=
  match s.session.managed with
  | none => { s with address := some address }
  | some frame => { s with address := some address, page := s.page.ledTo frame address origin }

def Route.address (r : Route) (val : CellId → Signal) : Address :=
  Controller.addressOf r (val r.theme).asTheme (val r.arguments).asArguments

namespace Action
variable {V α : Type} {same : V → V → Bool} {perform : Doer Duty V Preview} {g : System V}

section Rules
variable {Q : Unit → System V → Prop}

@[simp] theorem ends_state {R : Preview → System V → Prop} :
    state.Ends same perform g R ↔ R g.world g := by simp [state]

@[simp] theorem ends_update {f : Preview → Preview} :
    (update f).Ends same perform g Q ↔ Q () (g.withWorld (f g.world)) := by simp [update]

@[simp] theorem ends_say {level : Level} {topic : Topic} {text : String}
    {details : List (String × String)} : (say level topic text details).Ends same perform g Q ↔
      Q () (g.record (.noted ⟨level, topic, text, details⟩)) := by simp [say]

@[simp] theorem ends_onPage {f : Page → α × Page} {R : α → System V → Prop} :
    (onPage f).Ends same perform g R ↔
      R (f g.world.page).1 (g.withWorld { g.world with page := (f g.world.page).2 }) := by
      simp [onPage]

@[simp] theorem ends_call {c : Call} {R : Except Problem Unit → System V → Prop} :
    (call c).Ends same perform g R ↔
      R (g.world.page.call c).1 (g.withWorld { g.world with page := (g.world.page.call c).2 }) := by
  simp [call]

@[simp] theorem ends_note {d : Deed} :
    (note d).Ends same perform g Q ↔
    Q () (g.withWorld { g.world with page := g.world.page.note d }) := by
  simp [note]

@[simp] theorem ends_follow [Inhabited V] {c : CellId} {R : V → System V → Prop} :
    (follow c).Ends same perform g R ↔ c < g.cells.length ∧ R (g.value c) (g.track c) := by
  simp only [follow, ends_read, ends_done]
  constructor
  · rintro ⟨x, hx, hR⟩
    exact ⟨(List.getElem?_eq_some_iff.1 hx).1, by rwa [Graph.value_of_cell hx]⟩
  · rintro ⟨hc, hR⟩
    exact ⟨_, List.getElem?_eq_getElem hc,
      by rwa [Graph.value_of_cell (List.getElem?_eq_getElem hc)] at hR⟩

@[simp] theorem ends_look [Inhabited V] {c : CellId} {R : V → System V → Prop} :
    (look c).Ends same perform g R ↔ c < g.cells.length ∧ R (g.value c) g := by
  simp only [look, ends_inspect, ends_done, Graph.cellView?, Option.map_eq_some_iff]
  constructor
  · rintro ⟨_, ⟨x, hx, rfl⟩, hR⟩
    exact ⟨(List.getElem?_eq_some_iff.1 hx).1, by rwa [Graph.value_of_cell hx]⟩
  · rintro ⟨hc, hR⟩
    refine ⟨_, ⟨_, List.getElem?_eq_getElem hc, rfl⟩, ?_⟩
    rwa [Graph.value_of_cell (List.getElem?_eq_getElem hc)] at hR

@[simp] theorem ends_sayAll {ns : List Note} :
    (sayAll ns).Ends same perform g Q ↔ Q () (g.recordAll ns) := by
  induction ns generalizing g with
  | nil => simp [sayAll, Graph.recordAll]
  | cons n ns ih => simpa [sayAll, Graph.recordAll] using ih

@[simp] theorem ends_inSpan {span : Span} {act : ActionOver V α} {R : α → System V → Prop} :
    (inSpan span act).Ends same perform g R ↔
      act.Ends same perform (g.withSpan (some span)) fun a g' => R a (g'.withSpan none) := by
  have bind : act.bind (fun a => .within none (.done a)) = act >>= fun a =>
    .within none (.done a) := rfl
  simp [inSpan, bind]

end Rules
end Action

theorem Signal.Kind.toOption_format (k : Signal.Kind) (text : String) :
    (k.format.read text).toOption = (k.parse text).toOption := by
  cases read : k.parse text <;> simp only [format, read] <;> rfl

theorem Signal.Kind.format_read {k : Signal.Kind} {text : String} {v : Signal} :
    k.format.read text = .ok v ↔ k.parse text = .ok v := by
  cases read : k.parse text <;> simp [format, read]

namespace Stored
variable {V : Type} {same : V → V → Bool} {perform : Doer Duty V Preview} {g : System V}
    {key : String}

theorem writeWith_ends {json : V → Except String String} {v : V} :
    (writeWith json key v).Ends same perform g fun _ g' => ∃ n,
      g' = (g.withWorld { g.world with page := (storeWith json key v g.world.page).2 }).recordAll
        [n] := by
  simp only [writeWith, ends_bind, Action.ends_onPage]
  split <;> exact Action.ends_say.2 ⟨_, rfl⟩

def readFrom (parse : String → Except String V) : Except StorageFault (Option String) → Option V
  | .ok (some text) => (parse text).toOption
  | _ => none

theorem readFrom_eq_some {parse : String → Except String V}
    {answer : Except StorageFault (Option String)} {v : V} (h : readFrom parse answer = some v) :
    ∃ text, parse text = .ok v := by
  cases answer with
  | error fault => cases h
  | ok entry =>
    cases entry with
    | none => cases h
    | some text =>
      cases read : parse text with
      | error cause => simp [readFrom, read, Except.toOption] at h
      | ok x =>
        simp only [readFrom, read, Except.toOption, Option.some.injEq] at h
        exact ⟨text, by rw [read, h]⟩

theorem readWith?_ends {parse : String → Except String V} :
    (readWith? parse key).Ends same perform g fun r g' =>
      r = readFrom parse (g.world.page.load key).1 ∧
        ∃ ns, g' = (g.withWorld { g.world with page := (g.world.page.load key).2 }).recordAll
          ns := by
  simp only [readWith?, ends_bind, Action.ends_onPage]
  split
  case h_1 fault hf =>
    simp only [ends_bind, Action.ends_say, ends_pure]
    exact ⟨by rw [hf]; rfl, [_], rfl⟩
  case h_2 hn => exact ends_pure.2 ⟨by rw [hn]; rfl, [], rfl⟩
  case h_3 text ht =>
    rw [ht, readFrom]
    split
    case h_1 v hv => exact ends_pure.2 ⟨by rw [hv]; rfl, [], rfl⟩
    case h_2 cause hc =>
      simp only [ends_bind, Action.ends_say, ends_pure]
      exact ⟨by rw [hc]; rfl, [_], rfl⟩

end Stored

namespace Duty

def follows : Duty → List CellId
  | .followUrl arguments => [arguments]
  | .followAddress route => [route.theme, route.arguments]
  | _ => []

/-- The cells that a duty may look at, besides those that the preview refers to. -/
def mentions : Duty → List CellId
  | .watch _ _ theme scripts => [theme, scripts]
  | d => d.follows

def Acts (val : CellId → Signal) (s : Preview) : Duty → Preview → Prop
  | .store _, s' => s' = s
  | .followUrl arguments, s' =>
    s' = { s with page := s.page.withArguments (val arguments).asArguments }
  | .followAddress route, s' => s' = s.ledTo (route.address val) route.origin
  | .watch name .., s' =>
    s' = s ∨ ∃ sight, s' = { s with page := s.page.note (.watched name sight) }

def Hears (v : Signal) (s : Preview) : Duty → Preview → Prop
  | .store key, s' => s' = { s with page := (s.page.store key v.toJson.text).2 }
  | _, s' => s' = s

end Duty

def Preview.Fits (n : Nat) (s : Preview) : Prop :=
  ∀ story, s.bound = some story → story.arguments < n

section Bodies
variable {same : Signal → Signal → Bool} {perform : Doer Duty Signal Preview} {g : System}

theorem UrlSync.follow_ends {a : CellId} (ha : a < g.cells.length) :
    (UrlSync.follow a).Ends same perform g fun _ g' =>
      g.SameParts g' ∧ g'.scopes = (g.track a).scopes ∧
        g'.world = { g.world with page := g.world.page.withArguments (g.value a).asArguments } := by
  simp only [UrlSync.follow, ends_bind, Action.ends_state, Action.ends_follow, ha, true_and]
  split
  · rename_i h
    rw [Page.withArguments, if_pos h, Action.ends_say]
    exact ⟨⟨by simp, by simp, by simp⟩, by simp, by simp⟩
  · rename_i h
    rw [Page.withArguments, if_neg h, ends_bind, Action.ends_call]
    split
    · rw [Action.ends_say]
      exact ⟨⟨by simp, by simp, by simp⟩, by simp, by simp⟩
    · rw [Action.ends_say]
      exact ⟨⟨by simp, by simp, by simp⟩, by simp, by simp⟩

theorem Controller.lead_ends {frame : FrameId} {address : Address} {origin : String} :
    (Controller.lead frame address origin).Ends same perform g fun _ g' =>
      g.SameParts g' ∧ g'.scopes = g.scopes ∧
        g'.world = { g.world with page := g.world.page.ledTo frame address origin } := by
  simp only [Controller.lead, ends_bind, Action.ends_state, Page.ledTo, Page.sourceOf]
  -- An address that cannot be compared and one that differs are assigned alike.
  rcases address.isSource (((g.world.page.frame? frame).map Frame.src).getD "") origin
    with fault | _ | _
  · simp only [ends_bind, Action.ends_say, Action.ends_call]
    split
    · exact ends_pure.2 ⟨⟨rfl, rfl, rfl⟩, rfl, rfl⟩
    · exact Action.ends_say.2 ⟨⟨rfl, rfl, rfl⟩, rfl, rfl⟩
  · simp only [ends_bind, Action.ends_say, Action.ends_call]
    split
    · exact ends_pure.2 ⟨⟨rfl, rfl, rfl⟩, rfl, rfl⟩
    · exact Action.ends_say.2 ⟨⟨rfl, rfl, rfl⟩, rfl, rfl⟩
  · exact Action.ends_say.2 ⟨⟨rfl, rfl, rfl⟩, rfl, rfl⟩

theorem Controller.follow_ends {r : Route} (ht : r.theme < g.cells.length)
    (ha : r.arguments < g.cells.length) :
    (Controller.follow r).Ends same perform g fun _ g' =>
      g.SameParts g' ∧ g'.scopes = ((g.track r.theme).track r.arguments).scopes ∧
        g'.world = g.world.ledTo (r.address g.value) r.origin := by
  have value : (g.track r.theme).value = g.value := Graph.value_congr (by simp)
  simp only [Controller.follow, ends_bind, Action.ends_follow, Action.ends_update,
    Action.ends_state, Graph.track_cells, ht, ha, true_and, value, Preview.ledTo, Route.address]
  cases hm : g.world.session.managed with
  | none =>
    simp only [Graph.withWorld_world, Graph.track_world, hm]
    exact Action.ends_say.2 ⟨⟨by simp, by simp, by simp⟩, by simp, by simp⟩
  | some frame =>
    simp only [Graph.withWorld_world, Graph.track_world, hm]
    refine Controller.lead_ends.imp ?_
    rintro _ g' ⟨parts, scopes, world⟩
    refine ⟨?_, ?_, ?_⟩
    · exact ⟨by simp [parts.cells], by simp [parts.listeners], by simp [parts.effects]⟩
    · simp [scopes]
    · simp [world]

theorem App.see_ends (toolbar : Toolbar) {view : View} (ht : toolbar.theme < g.cells.length)
    (hs : toolbar.scripts < g.cells.length) (hfit : g.world.Fits g.cells.length) :
    (App.see toolbar view).Ends same perform g fun _ g' =>
      g.SameParts g' ∧ g'.world = g.world ∧ ∀ {cs : List CellId} {scopes : List Scope},
        g.scopes = .tracked cs :: scopes → ∃ cs', g'.scopes = .tracked cs' :: scopes := by
  have tracked (k : System) (c : CellId) {cs : List CellId} {scopes : List Scope}
      (h : k.scopes = .tracked cs :: scopes) : ∃ cs',
          (k.track c).scopes = .tracked cs' :: scopes := by
    obtain ⟨cs', hcs, -⟩ := Graph.track_tracked k c h
    exact ⟨cs', hcs⟩
  cases view with
  | labels =>
    simp only [App.see, Toolbar.labels, ends_bind, Action.ends_follow, Graph.track_cells, ht, hs,
      true_and, ends_pure]
    refine ⟨⟨by simp, by simp, by simp⟩, by simp, fun h => ?_⟩
    obtain ⟨cs', hcs⟩ := tracked g toolbar.scripts h
    exact tracked _ toolbar.theme hcs
  | theme =>
    simp only [App.see, ends_bind, Action.ends_follow, ht, true_and, ends_pure]
    exact ⟨⟨by simp, by simp, by simp⟩, by simp, fun h => tracked g toolbar.theme h⟩
  | themeOnce =>
    simp only [App.see, ends_bind, Action.ends_look, ht, true_and, ends_pure]
    exact ⟨⟨rfl, rfl, rfl⟩, fun h => ⟨_, h⟩⟩
  | arguments =>
    simp only [App.see, ends_bind, Action.ends_state]
    split
    · exact ends_pure.2 ⟨⟨rfl, rfl, rfl⟩, rfl, fun h => ⟨_, h⟩⟩
    · rename_i story hb
      simp only [ends_bind, Action.ends_follow, hfit story hb, true_and, ends_pure]
      exact ⟨⟨by simp, by simp, by simp⟩, by simp, fun h => tracked g story.arguments h⟩

theorem App.tell_ends {name : String} (toolbar : Toolbar) {view : View} {cs : List CellId}
    {scopes : List Scope} (ht : toolbar.theme < g.cells.length)
    (hs : toolbar.scripts < g.cells.length) (hfit : g.world.Fits g.cells.length)
    (h : g.scopes = .tracked cs :: scopes) :
    (App.tell name toolbar view).Ends same perform g fun _ g' =>
      g.SameParts g' ∧ (g'.world = g.world ∨
        ∃ sight, g'.world = { g.world with page := g.world.page.note (.watched name sight) }) ∧
      ∃ cs', g'.scopes = .tracked cs' :: scopes := by
  simp only [App.tell, ends_bind, Action.ends_state]
  split
  · rw [ends_bind]
    refine (App.see_ends toolbar ht hs hfit).imp ?_
    rintro sight g' ⟨parts, world, tracked⟩
    rw [Action.ends_note, world]
    exact ⟨⟨parts.cells, parts.listeners, parts.effects⟩, .inr ⟨sight, rfl⟩, tracked h⟩
  · exact ends_pure.2 ⟨⟨rfl, rfl, rfl⟩, .inl rfl, cs, h⟩

theorem Stored.write_ends {key : String} {v : Signal} :
    (Stored.write key v).Ends same perform g fun _ g' =>
      g.SameParts g' ∧ g'.scopes = g.scopes ∧
        g'.world = { g.world with page := (g.world.page.store key v.toJson.text).2 } := by
  refine Stored.writeWith_ends.imp ?_
  rintro _ _ ⟨n, rfl⟩
  exact ⟨⟨rfl, rfl, rfl⟩, rfl, rfl⟩

end Bodies

def App.calm : Calm App.meaning where
  mentions := Duty.mentions
  follows := Duty.follows
  fit := Preview.Fits
  acts d val s s' := d.Acts val s s'
  hears d v s s' := d.Hears v s s'
  follows_mentions := by
    intro d c hc
    cases d <;> first | exact hc | simp [Duty.follows] at hc
  body_ends := by
    intro perform d g scopes hs hm hfit
    cases d with
    | store key => exact ends_pure.2 ⟨⟨rfl, rfl, rfl⟩, rfl, [], hs, by simp [Duty.follows]⟩
    | followUrl a =>
      have ha : a < g.cells.length := hm a (by simp [Duty.mentions, Duty.follows])
      refine (UrlSync.follow_ends ha).imp ?_
      rintro _ g' ⟨parts, scopes, world⟩
      refine ⟨parts, world, ?_⟩
      obtain ⟨cs, hcs, hac, -⟩ := Graph.track_tracked g a hs
      exact ⟨cs, scopes.trans hcs, by simpa [Duty.follows] using hac⟩
    | followAddress r =>
      have ht : r.theme < g.cells.length := hm _ (by simp [Duty.mentions, Duty.follows])
      have ha : r.arguments < g.cells.length := hm _ (by simp [Duty.mentions, Duty.follows])
      refine (Controller.follow_ends ht ha).imp ?_
      rintro _ g' ⟨parts, scopes, world⟩
      refine ⟨parts, world, ?_⟩
      obtain ⟨cs, hcs, htc, -⟩ := Graph.track_tracked g r.theme hs
      obtain ⟨cs', hcs', hac, keep, -⟩ := Graph.track_tracked (g.track r.theme) r.arguments hcs
      exact ⟨cs', scopes.trans hcs', by simpa [Duty.follows] using ⟨keep _ htc, hac⟩⟩
    | watch name view theme scripts =>
      have ht : theme < g.cells.length := hm _ (by simp [Duty.mentions])
      have hc : scripts < g.cells.length := hm _ (by simp [Duty.mentions])
      refine (App.tell_ends ⟨theme, scripts⟩ ht hc hfit hs).imp ?_
      rintro _ g' ⟨parts, world, cs, hcs⟩
      exact ⟨parts, world, cs, hcs, by simp [Duty.follows]⟩
  reaction_ends := by
    intro perform d v g
    cases d with
    | store key =>
      refine Stored.write_ends.imp ?_
      rintro _ g' ⟨parts, scopes, world⟩
      exact ⟨parts, world, scopes⟩
    | _ => exact ends_pure.2 ⟨⟨rfl, rfl, rfl⟩, rfl, rfl⟩

end StoryPreview
