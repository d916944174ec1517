import StoryPreview.App.Run
import StoryPreview.Proofs.Address
import StoryPreview.Proofs.Location
/-!
What a preview does to its page, and what it leaves alone: it makes calls, writes to the store and
keeps a record, and nothing of this touches where frames stand, what modules there are, or which
calls are allowed without bound.
-/
namespace StoryPreview

inductive Content where
  | source (src : String)
  | document (html : String)

def Deed.content? (f : FrameId) : Deed → Option Content
  | .called (.setSrc g src) false => if g = f then some (.source src) else none
  | .called (.setSrcdoc g html) false => if g = f then some (.document html) else none
  | _ => none

namespace Page

def withArguments (p : Page) (args : Arguments) : Page :=
  if p.location.urlWith args = p.location.url then p
  else (p.call (.replaceUrl (p.location.urlWith args))).2

def sourceOf (p : Page) (frame : FrameId) : String := ((p.frame? frame).map Frame.src).getD ""

def ledTo (p : Page) (frame : FrameId) (address : Address) (origin : String) : Page :=
  match address.isSource (p.sourceOf frame) origin with
  | .ok true => p
  | _ => (p.call (.setSrc frame address.text)).2

/-- The pages that come about when a preview does something: it makes calls, keeps a record, and
writes to the store. -/
inductive Reaches (p : Page) : Page → Prop where
  | refl : Reaches p p
  | call {q : Page} (h : Reaches p q) (c : Call) : Reaches p (q.call c).2
  | note {q : Page} (h : Reaches p q) {d : Deed} (hd : ∀ f, d.content? f = none) :
    Reaches p (q.note d)
  | store {q : Page} (h : Reaches p q) (key text : String) : Reaches p (q.store key text).2

/-- A property that calls, records and the store keep holds of all pages that come about. -/
theorem Reaches.keeps {p q : Page} {P : Page → Prop} (h : p.Reaches q) (hp : P p)
    (call : ∀ (q : Page) (c : Call), P q → P (q.call c).2)
    (note : ∀ (q : Page) (d : Deed), (∀ f, d.content? f = none) → P q → P (q.note d))
    (store : ∀ (q : Page) (key text : String), P q → P (q.store key text).2) : P q := by
  induction h with
  | refl => exact hp
  | call _ c ih => exact call _ c ih
  | note _ hd ih => exact note _ _ hd ih
  | store _ key text ih => exact store _ key text ih

theorem Reaches.trans {p q r : Page} (h : p.Reaches q) (h' : q.Reaches r) : p.Reaches r :=
  h'.keeps h (fun _ c h => h.call c) (fun _ _ hd h => h.note hd) fun _ key text h =>
    h.store key text

structure SamePlace (p q : Page) : Prop where
  frames : q.frames.length = p.frames.length
  origin : q.origin = p.origin
  srcBase : q.srcBase = p.srcBase

theorem SamePlace.refl (p : Page) : p.SamePlace p := ⟨rfl, rfl, rfl⟩

theorem SamePlace.trans {p q r : Page} (h : p.SamePlace q) (h' : q.SamePlace r) : p.SamePlace r :=
  ⟨h'.frames.trans h.frames, h'.origin.trans h.origin, h'.srcBase.trans h.srcBase⟩

structure SameSetting (p q : Page) : Prop extends p.SamePlace q where
  frameIds : q.frameIds = p.frameIds
  texts : q.texts = p.texts
  modules : q.modules = p.modules
  held : q.held = p.held
  allowance : ∀ {k : CallKind}, p.allowance k = none → q.allowance k = none

theorem SameSetting.refl (p : Page) : p.SameSetting p := ⟨⟨rfl, rfl, rfl⟩, rfl, rfl, rfl, rfl, id⟩

theorem SameSetting.trans {p q r : Page} (h : p.SameSetting q) (h' : q.SameSetting r) :
    p.SameSetting r :=
  ⟨h.toSamePlace.trans h'.toSamePlace, h'.frameIds.trans h.frameIds, h'.texts.trans h.texts,
    h'.modules.trans h.modules, h'.held.trans h.held, fun hk => h'.allowance (h.allowance hk)⟩

theorem SameSetting.note (p : Page) (d : Deed) : p.SameSetting (p.note d) :=
  ⟨⟨rfl, rfl, rfl⟩, rfl, rfl, rfl, rfl, id⟩

theorem SameSetting.store (p : Page) (key text : String) : p.SameSetting (p.store key text).2 := by
  unfold Page.store
  split <;> exact ⟨⟨rfl, rfl, rfl⟩, rfl, rfl, rfl, rfl, id⟩

theorem SameSetting.obey (p : Page) (c : Call) : p.SameSetting (p.obey c) := by
  cases c with
  | setClass s name on => cases s <;> exact ⟨⟨rfl, rfl, rfl⟩, rfl, rfl, rfl, rfl, id⟩
  | setSrc f src => exact ⟨⟨List.length_modify .., rfl, rfl⟩, rfl, rfl, rfl, rfl, id⟩
  | setSrcdoc f html => exact ⟨⟨List.length_modify .., rfl, rfl⟩, rfl, rfl, rfl, rfl, id⟩
  | setAttribute f name value => exact ⟨⟨List.length_modify .., rfl, rfl⟩, rfl, rfl, rfl, rfl, id⟩
  | _ => exact ⟨⟨rfl, rfl, rfl⟩, rfl, rfl, rfl, rfl, id⟩

theorem obey_allowance (p : Page) (c : Call) : (p.obey c).allowance = p.allowance := by
  cases c with
  | setClass s name on => cases s <;> rfl
  | _ => rfl

theorem SameSetting.allow {p : Page} {k : CallKind} {a : Allowance}
    (h : p.allowance k = none → a = none) : p.SameSetting (p.allow k a) := by
  refine ⟨⟨rfl, rfl, rfl⟩, rfl, rfl, rfl, rfl, fun {j} hj => ?_⟩
  simp only [Page.allow]
  split
  · rename_i heq
    exact h (heq ▸ hj)
  · exact hj

/-- A call that is carried out, and one that is refused. -/
theorem call_cases (p : Page) (c : Call) :
    (p.call c).2 = ((p.obey c).allow c.kind (p.allowance c.kind).spent).note (.called c false) ∧
        (p.call c).1 = .ok () ∨
    (p.call c).2 = p.note (.called c true) ∧ p.allowance c.kind ≠ none := by
  unfold Page.call
  split
  · exact .inl ⟨rfl, rfl⟩
  · rename_i h
    refine .inr ⟨rfl, fun hn => h ?_⟩
    rw [hn]
    rfl

theorem call_allowed {p : Page} {c : Call} (h : p.allowance c.kind = none) :
    p.call c = (.ok (), ((p.obey c).allow c.kind none).note (.called c false)) := by
  simp [Page.call, h, Allowance.admits, Allowance.spent]

theorem SameSetting.call (p : Page) (c : Call) : p.SameSetting (p.call c).2 := by
  rcases call_cases p c with ⟨h, -⟩ | ⟨h, -⟩
  · rw [h]
    have spent : (p.obey c).allowance c.kind = none → (p.allowance c.kind).spent = none :=
      fun hk => by
      rw [obey_allowance] at hk
      rw [hk]
      rfl
    exact ((SameSetting.obey p c).trans (.allow spent)).trans (.note _ _)
  · rw [h]
    exact .note _ _

theorem Reaches.setting {p q : Page} (h : p.Reaches q) : p.SameSetting q :=
  h.keeps (.refl p) (fun q c h => h.trans (.call q c)) (fun q d _ h => h.trans (.note q d))
    fun q key text h => h.trans (.store q key text)

/-! The location of a page. -/

@[simp] theorem note_location (p : Page) (d : Deed) : (p.note d).location = p.location := rfl

@[simp] theorem store_location (p : Page) (key text : String) :
    (p.store key text).2.location = p.location := by
  unfold Page.store
  split <;> rfl

theorem call_location {p : Page} {c : Call} (h : c.kind ≠ .replaceUrl) :
    (p.call c).2.location = p.location := by
  rcases call_cases p c with ⟨he, -⟩ | ⟨he, -⟩
  · rw [he]
    cases c with
    | replaceUrl url => exact absurd rfl h
    | setClass s name on => cases s <;> rfl
    | _ => rfl
  · rw [he]
    rfl

structure Located (p : Page) : Prop where
  allowed : p.allowance .replaceUrl = none
  wellFormed : p.location.WellFormed

theorem Located.reaches {p q : Page} (h : p.Located) (hr : p.Reaches q) : q.Located := by
  refine ⟨hr.setting.allowance h.allowed, ?_⟩
  refine hr.keeps (P := fun q => q.location.WellFormed) h.wellFormed (fun q c hq => ?_)
    (fun q d _ hq => hq) fun q key text hq => ?_
  · by_cases hk : c.kind = .replaceUrl
    · rcases call_cases q c with ⟨he, -⟩ | ⟨he, -⟩
      · cases c with
        | replaceUrl url =>
          rw [he]
          exact Location.ofUrl_wellFormed url
        | _ => cases hk
      · rw [he]
        exact hq
    · rwa [call_location hk]
  · rwa [store_location]

/-- The location has arguments, if their keys can stand in a query: it would not change if they were
put into it. -/
def Has (p : Page) (args : Arguments) : Prop :=
  Location.CleanKeys args → p.location.urlWith args = p.location.url

theorem Has.congr {p q : Page} {args : Arguments} (h : p.Has args) (hl : q.location = p.location) :
    q.Has args := by
  unfold Has at h ⊢
  rwa [hl]

/-- A location has the arguments that were put into it. -/
theorem Located.withArguments {p : Page} (h : p.Located) (args : Arguments) :
    (p.withArguments args).Has args := by
  intro clean
  unfold Page.withArguments
  split
  · assumption
  · rw [call_allowed h.allowed]
    change (Location.ofUrl (p.location.urlWith args)).urlWith args =
      (Location.ofUrl (p.location.urlWith args)).url
    rw [Location.urlWith_ofUrl_urlWith h.wellFormed clean, Location.url_ofUrl]

/-! The frames of a page. -/

@[simp] theorem note_frames (p : Page) (d : Deed) : (p.note d).frames = p.frames := rfl

@[simp] theorem store_frames (p : Page) (key text : String) :
    (p.store key text).2.frames = p.frames := by
  unfold Page.store
  split <;> rfl

theorem sourceOf_congr {p q : Page} (h : q.frames = p.frames) (f : FrameId) :
    q.sourceOf f = p.sourceOf f := by
  simp [Page.sourceOf, Page.frame?, h]

theorem sourceOf_modifyFrame (p : Page) (g f : FrameId) (h : Frame → Frame) :
    (p.modifyFrame g h).sourceOf f =
    ((p.frames[f]?.map fun x => (if g = f then h x else x).src).getD "") := by
  simp only [Page.sourceOf, Page.frame?, Page.modifyFrame, List.getElem?_modify]
  cases p.frames[f]? <;> simp

/-- Only an assigned source changes the source of a frame. -/
theorem call_sourceOf {p : Page} {c : Call} (h : c.kind ≠ .setSrc) (f : FrameId) :
    (p.call c).2.sourceOf f = p.sourceOf f := by
  have same (q : Frame → Frame) (hq : ∀ x, (q x).src = x.src) (g : FrameId) :
      (p.modifyFrame g q).sourceOf f = p.sourceOf f := by
    rw [sourceOf_modifyFrame]
    simp only [Page.sourceOf, Page.frame?]
    cases p.frames[f]? with
    | none => rfl
    | some x => by_cases hg : g = f <;> simp [hg, hq]
  rcases call_cases p c with ⟨he, -⟩ | ⟨he, -⟩
  · rw [he]
    cases c with
    | setSrc g src => exact absurd rfl h
    | setSrcdoc g html => exact same (fun x => { x with srcdoc := some html }) (fun _ => rfl) g
    | setAttribute g name value =>
      exact same (fun x => { x with attributes := x.attributes.insert name value }) (fun _ => rfl) g
    | setClass s name on => cases s <;> rfl
    | _ => rfl
  · rw [he]
    rfl

theorem sourceOf_setSrc {p : Page} {f : FrameId} (h : p.allowance .setSrc = none)
    (hf : f < p.frames.length) (g : FrameId) (src : String) :
    (p.call (.setSrc g src)).2.sourceOf f = if g = f then p.srcBase ++ src else p.sourceOf f := by
  have hk : p.allowance (Call.setSrc g src).kind = none := h
  rw [call_allowed hk]
  change (p.modifyFrame g _).sourceOf f = _
  rw [sourceOf_modifyFrame]
  by_cases hg : g = f
  · simp [hg, hf]
  · simp only [hg, if_false]
    rfl

theorem ledTo_location (p : Page) (f : FrameId) (a : Address) (origin : String) :
    (p.ledTo f a origin).location = p.location := by
  unfold ledTo
  split
  · rfl
  · exact call_location (by simp [Call.kind])

theorem withArguments_frames (p : Page) (args : Arguments) (f : FrameId) :
    (p.withArguments args).sourceOf f = p.sourceOf f := by
  unfold withArguments
  split
  · rfl
  · exact call_sourceOf (by simp [Call.kind]) f

theorem Reaches.withArguments (p : Page) (args : Arguments) : p.Reaches (p.withArguments args) := by
  unfold Page.withArguments
  split
  · exact .refl
  · exact .call .refl _

theorem Reaches.ledTo (p : Page) (f : FrameId) (a : Address) (origin : String) :
    p.Reaches (p.ledTo f a origin) := by
  unfold Page.ledTo
  split
  · exact .refl
  · exact .call .refl _

def content? (p : Page) (f : FrameId) : Option Content := p.deeds.findSome? (Deed.content? f)

/-- Sources can be assigned, frames stand where they are said to, and a frame whose content was
written last by assigning a source has that source. -/
structure Framed (p : Page) : Prop where
  allowed : p.allowance .setSrc = none
  placed : ∀ {id : String} {f : FrameId}, (id, f) ∈ p.frameIds → f < p.frames.length
  shown : ∀ {f : FrameId} {src : String}, f < p.frames.length → p.content? f = some (.source src) →
    p.sourceOf f = p.srcBase ++ src

/-- A page on which nothing has been done. -/
theorem framed_of_fresh {p : Page} (ha : p.allowance .setSrc = none)
    (hf : ∀ {id : String} {f : FrameId}, (id, f) ∈ p.frameIds → f < p.frames.length)
    (hd : p.deeds = []) : p.Framed := by
  refine ⟨ha, hf, fun _ h => ?_⟩
  simp [content?, hd] at h

theorem content?_note (p : Page) (d : Deed) (f : FrameId) :
    (p.note d).content? f = (Deed.content? f d).or (p.content? f) := by
  simp only [content?, Page.note, List.findSome?_cons]
  cases Deed.content? f d <;> rfl

theorem content?_obey (p : Page) (c : Call) (k : CallKind) (a : Allowance) (f : FrameId) :
    ((p.obey c).allow k a).content? f = p.content? f := by
  cases c with
  | setClass s name on => cases s <;> rfl
  | _ => rfl

theorem content?_call_allowed {p : Page} {c : Call} (h : p.allowance c.kind = none) (f : FrameId) :
    (p.call c).2.content? f = (Deed.content? f (.called c false)).or (p.content? f) := by
  rw [call_allowed h, content?_note, content?_obey]

/-- The content after a call that is no assignment of a source is a document or what it was. -/
theorem content?_call {p : Page} {c : Call} (hk : c.kind ≠ .setSrc) {f : FrameId} {src : String}
    (h : (p.call c).2.content? f = some (.source src)) : p.content? f = some (.source src) := by
  rcases call_cases p c with ⟨he, -⟩ | ⟨he, -⟩
  · rw [he, content?_note, content?_obey] at h
    cases c with
    | setSrc g src => exact absurd rfl hk
    | setSrcdoc g html =>
      simp only [Deed.content?] at h
      split at h
      · simp at h
      · exact h
    | _ => exact h
  · rw [he, content?_note] at h
    cases c <;> exact h

theorem Framed.reaches {p q : Page} (h : p.Framed) (hr : p.Reaches q) : q.Framed := by
  refine hr.keeps (P := Framed) h (fun q c hq => ?_) (fun q d hd hq => ?_) fun q key text hq => ?_
  · have set := SameSetting.call q c
    refine ⟨set.allowance hq.allowed, by rw [set.frameIds, set.frames]; exact hq.placed, ?_⟩
    intro f src hf hs
    rw [set.frames] at hf
    rw [set.srcBase]
    by_cases hk : c.kind = .setSrc
    · cases c with
      | setSrc g x =>
        rw [sourceOf_setSrc hq.allowed hf]
        rw [content?_call_allowed hq.allowed] at hs
        simp only [Deed.content?] at hs
        split at hs
        · rename_i hg
          simp only [Option.some_or, Option.some.injEq, Content.source.injEq] at hs
          rw [if_pos hg, hs]
        · rename_i hg
          rw [if_neg hg]
          exact hq.shown hf hs
      | _ => cases hk
    · rw [call_sourceOf hk]
      exact hq.shown hf (content?_call hk hs)
  · refine ⟨hq.allowed, hq.placed, fun {f src} hf hs => hq.shown hf ?_⟩
    rwa [content?_note, hd f] at hs
  · have set := SameSetting.store q key text
    refine ⟨set.allowance hq.allowed, by rw [set.frameIds, set.frames]; exact hq.placed, ?_⟩
    intro f src hf hs
    rw [sourceOf_congr (store_frames q key text), set.srcBase]
    rw [set.frames] at hf
    refine hq.shown hf ?_
    unfold Page.store at hs
    split at hs
    · exact hs
    · exact hs

/-- A frame has a source that leads to an address, at an origin of the web and with a plain path. -/
def Leads (p : Page) (f : FrameId) (a : Address) : Prop :=
  Url.WebOrigin p.origin → p.srcBase = "" ∨ p.srcBase = p.origin → Url.PlainPath a.path.toList →
    a.isSource (p.sourceOf f) p.origin = .ok true

theorem Leads.congr {p q : Page} {f : FrameId} {a : Address} (h : p.Leads f a)
    (hs : q.sourceOf f = p.sourceOf f) (set : p.SameSetting q) : q.Leads f a := by
  unfold Leads at h ⊢
  rwa [hs, set.origin, set.srcBase]

theorem leads_setSrc {p : Page} {f : FrameId} (h : p.allowance .setSrc = none)
    (hf : f < p.frames.length) (a : Address) : (p.call (.setSrc f a.text)).2.Leads f a := by
  intro ho hb hp
  have set := SameSetting.call p (.setSrc f a.text)
  rw [set.origin, set.srcBase] at hb
  rw [set.origin] at ho ⊢
  rw [sourceOf_setSrc h hf, if_pos rfl]
  exact a.isSource_text ho hb hp

theorem leads_ledTo {p : Page} {f : FrameId} (h : p.allowance .setSrc = none)
    (hf : f < p.frames.length) (a : Address) : (p.ledTo f a p.origin).Leads f a := by
  unfold ledTo
  split
  · rename_i hs
    exact fun _ _ _ => hs
  · exact leads_setSrc h hf a

end Page
end StoryPreview
