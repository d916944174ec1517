import StoryPreview.ThemeClasses
import StoryPreview.Proofs.Dialogues
import StoryPreview.Proofs.Pages
/-!
Themes in the classes of a document. Applying a theme sets four classes, and any of them can be
refused; what was set before stays. The remembered theme is that of the last application that came
through. So a theme that counts as applied is worn, unless another one was begun and given up since.
-/
namespace StoryPreview
open Reactive
variable {M E W : Type}

/-! ### Documents with classes -/

abbrev ClassChange := Surface × String × Bool

abbrev Outfit := Surface → String → Prop

namespace Outfit

def change (o : Outfit) : ClassChange → Outfit
  | (s, name, on) => fun s' name' => if s' = s ∧ name' = name then on = true else o s' name'

def changeAll (o : Outfit) (cs : List ClassChange) : Outfit := cs.foldl change o

end Outfit

/-- A document whose classes change as they are set, and not when they are refused. -/
structure Dresses (d : Document M E W) (outfit : W → Outfit) : Prop where
  set : ∀ (s : Surface) (name : String) (on : Bool) (w : W), (d (.setClass s name on) w).1 =
    .ok () → outfit (d (.setClass s name on) w).2 = (outfit w).change (s, name, on)
  refused : ∀ (s : Surface) (name : String) (on : Bool) (w : W) (problem : Problem),
    (d (.setClass s name on) w).1 = .error problem → outfit (d (.setClass s name on) w).2 = outfit w

namespace ThemeClasses
variable {d : Document M E W} {outfit : W → Outfit} {w : W} {c : ThemeClasses}

/-- Changes are made in order: all of them, or those before the one that is refused. -/
theorem hold_setAll (h : Dresses d outfit) (changes : List ClassChange) (w : W) :
    let r := (setAll changes).hold d w
    ∃ made left, changes = made ++ left ∧ outfit r.state = (outfit w).changeAll made ∧
      match r.outcome with
      | .ok _ => left = []
      | .error _ => left ≠ [] ∧ r.asked.length = made.length + 1 := by
  induction changes generalizing w with
  | nil => exact ⟨[], [], rfl, rfl, rfl⟩
  | cons change rest ih =>
    obtain ⟨s, name, on⟩ := change
    simp only [setAll, Dialogue.hold_bind, Dialogue.hold_request]
    cases answer : (d (.setClass s name on) w).1 with
    | error problem =>
      refine ⟨[], (s, name, on) :: rest, rfl, ?_, ?_⟩
      · exact h.refused s name on w problem answer
      · exact ⟨List.cons_ne_nil _ _, rfl⟩
    | ok u =>
      obtain ⟨made, left, rfl, changed, ends⟩ := ih (d (.setClass s name on) w).2
      refine ⟨(s, name, on) :: made, left, rfl, ?_, ?_⟩
      · exact changed.trans (congrArg (Outfit.changeAll · made) (h.set s name on w answer))
      · cases outcome : ((setAll (made ++ left)).hold d (d (.setClass s name on) w).2).outcome with
        | error problem =>
          simp only [outcome] at ends
          simp [outcome, ends.1, ends.2, Nat.add_comm]
        | ok u =>
          simp only [outcome] at ends
          simpa only [Transcript.after_outcome, outcome] using ends

end ThemeClasses

namespace Outfit
variable {o : Outfit}

theorem changeAll_keeps {s : Surface} {name : String} {cs : List ClassChange} (h : o s name)
    (kept : (s, name, false) ∉ cs) : o.changeAll cs s name := by
  induction cs generalizing o with
  | nil => exact h
  | cons c cs ih =>
    obtain ⟨s', name', on⟩ := c
    rw [List.mem_cons, not_or] at kept
    refine ih (o := o.change (s', name', on)) ?_ kept.2
    simp only [change]
    split
    · rename_i same
      obtain ⟨rfl, rfl⟩ := same
      cases on
      · exact absurd rfl kept.1
      · rfl
    · exact h

end Outfit

/-! ### Themes -/

namespace ThemeClasses
variable {d : Document M E W} {outfit : W → Outfit} {c : ThemeClasses} {o : Outfit} {t : Theme}

def Wears (c : ThemeClasses) (t : Theme) (o : Outfit) : Prop :=
  ∀ s, o s (c.classOf t) ∧ ¬o s (c.classOf t.toggled)

theorem classOf_ne (differ : c.light ≠ c.dark) (t : Theme) : c.classOf t ≠ c.classOf t.toggled := by
  cases t with
  | light => exact differ
  | dark => exact differ.symm

theorem wears_changeAll (differ : c.light ≠ c.dark) (t : Theme) (o : Outfit) :
    c.Wears t (o.changeAll (c.changes t)) := by
  have ne := classOf_ne differ t
  intro s
  cases s with
  | root => simp [changes, Outfit.changeAll, Outfit.change, ne, ne.symm]
  | body => simp [changes, Outfit.changeAll, Outfit.change, ne, ne.symm]

theorem kept_of_changes (differ : c.light ≠ c.dark) (s : Surface) :
    (s, c.classOf t, false) ∉ c.changes t := by
  have ne := classOf_ne differ t
  simp [changes, ne]

/-- The first change gives the root the class of the theme, and no other takes it away. -/
theorem root_of_made (differ : c.light ≠ c.dark) {made left : List ClassChange}
    (h : c.changes t = made ++ left) (begun : made ≠ []) :
    o.changeAll made .root (c.classOf t) := by
  obtain ⟨first, made, rfl⟩ := List.exists_cons_of_ne_nil begun
  obtain ⟨rfl, -⟩ :=
    List.cons.inj (show (.root, c.classOf t, true) :: _ = first :: (made ++ left) from h)
  refine Outfit.changeAll_keeps (o := o.change (.root, c.classOf t, true)) (by simp [Outfit.change])
    fun hm => ?_
  refine kept_of_changes differ .root (t := t) ?_
  rw [h]
  exact List.mem_append_left _ (List.mem_cons_of_mem _ hm)

structure Fitting (W : Type) where
  classes : ThemeClasses
  world : W
  /-- Whether another theme was begun and given up since one was applied. -/
  begun : Bool := false

namespace Fitting

/-- Applies a theme: what comes of it, and how things are after it. The change that is refused is
asked for too, so others were made before it exactly if more than one was asked for. -/
def fit (d : Document M E W) (f : Fitting W) (t : Theme) : Except Problem Bool × Fitting W :=
  let r := (f.classes.put t).hold d f.world
  (r.outcome.1, ⟨r.outcome.2, r.state, match r.outcome.1 with
    | .ok true => false
    | .ok false => f.begun
    | .error _ => f.begun || decide (1 < r.asked.length)⟩)

def fitAll (d : Document M E W) (f : Fitting W) (ts : List Theme) : Fitting W :=
  ts.foldl (fun f t => (f.fit d t).2) f

variable {f : Fitting W}

/-- What applying a theme can come to: it counts as applied already; all changes are made; or some
of them, and one is refused. -/
theorem fit_cases (h : Dresses d outfit) (f : Fitting W) (t : Theme) :
    (f.classes.applied = some t ∧ f.fit d t = (.ok false, f)) ∨
    (∃ w, f.fit d t = (.ok true, ⟨{ f.classes with applied := some t }, w, false⟩) ∧
      outfit w = (outfit f.world).changeAll (f.classes.changes t)) ∨
    (f.classes.applied ≠ some t ∧ ∃ problem w made left, f.classes.changes t = made ++ left ∧
      f.fit d t = (.error problem, ⟨f.classes, w, f.begun || decide (made ≠ [])⟩) ∧
      outfit w = (outfit f.world).changeAll made) := by
  by_cases applied : f.classes.applied = some t
  · refine .inl ⟨applied, ?_⟩
    simp [fit, put, applied]
  · obtain ⟨made, left, split, changed, ends⟩ := hold_setAll h (f.classes.changes t) f.world
    cases outcome : ((setAll (f.classes.changes t)).hold d f.world).outcome with
    | ok u =>
      simp only [outcome] at ends
      rw [ends, List.append_nil] at split
      rw [← split] at changed
      refine .inr (.inl ⟨_, ?_, changed⟩)
      simp [fit, put, applied, outcome]
    | error problem =>
      simp only [outcome] at ends
      refine .inr (.inr ⟨applied, problem, _, made, left, split, ?_, changed⟩)
      simp [fit, put, applied, outcome, ends.2, List.length_pos_iff]

/-- What the remembered theme means: it is worn, unless another one was begun since, whose class the
root then has. -/
structure Remembers (c : ThemeClasses) (outfit : W → Outfit) (f : Fitting W) : Prop where
  same : f.classes = { c with applied := f.classes.applied }
  worn : ∀ t, f.classes.applied = some t → f.begun = false → c.Wears t (outfit f.world)
  given : ∀ t, f.classes.applied = some t → f.begun = true →
    outfit f.world .root (c.classOf t.toggled)

variable {c : ThemeClasses}

theorem Remembers.changes_eq (hf : f.Remembers c outfit) (t : Theme) :
    f.classes.changes t = c.changes t := by
  rw [hf.same]
  cases t <;> rfl

theorem Remembers.fit (h : Dresses d outfit) (differ : c.light ≠ c.dark) (hf : f.Remembers c outfit)
    (t : Theme) : (f.fit d t).2.Remembers c outfit := by
  rcases fit_cases h f t with ⟨-, fitted⟩ | ⟨w, fitted, changed⟩ | ⟨other, problem, w, made, left,
    split, fitted, changed⟩
  · rwa [fitted]
  · rw [hf.changes_eq t] at changed
    rw [fitted]
    refine ⟨by rw [hf.same], ?_, nofun⟩
    rintro u ⟨⟩ -
    exact changed ▸ wears_changeAll differ t _
  · rw [hf.changes_eq t] at split
    rw [fitted]
    refine ⟨hf.same, fun u applied untouched => ?_, fun u applied touched => ?_⟩
    · simp only [Bool.or_eq_false_iff, decide_eq_false_iff_not, not_not] at untouched
      rw [changed, untouched.2]
      exact hf.worn u applied untouched.1
    · have turned : t = u.toggled := by
        have ne : u ≠ t := fun he => other (he ▸ applied)
        revert ne
        cases u <;> cases t <;> decide
      rw [changed, ← turned]
      by_cases begun : made = []
      · subst begun
        have before : f.begun = true := by simpa using touched
        exact turned ▸ hf.given u applied before
      · exact root_of_made differ split begun

theorem Remembers.fitAll (h : Dresses d outfit) (differ : c.light ≠ c.dark)
    (hf : f.Remembers c outfit) (ts : List Theme) : (f.fitAll d ts).Remembers c outfit := by
  induction ts generalizing f with
  | nil => exact hf
  | cons t ts ih => exact ih (hf.fit h differ t)

/-- After themes were applied in any order, with changes refused at any points, one that comes
through or counts as applied is worn exactly if it was set anew, or no other one was begun and given
up since the last that came through. -/
theorem worn_iff (h : Dresses d outfit) (differ : c.light ≠ c.dark) (fresh : c.applied = none)
    (w : W) (ts : List Theme) (t : Theme) {isNew : Bool}
    (came : ((fitAll d ⟨c, w, false⟩ ts).fit d t).1 = .ok isNew) :
    let f := fitAll d ⟨c, w, false⟩ ts
    c.Wears t (outfit (f.fit d t).2.world) ↔ isNew = true ∨ f.begun = false := by
  intro f
  have start : Remembers c outfit ⟨c, w, false⟩ :=
    ⟨rfl, fun t applied => (by rw [fresh] at applied; cases applied), nofun⟩
  have hf : f.Remembers c outfit := start.fitAll h differ ts
  rcases fit_cases h f t with ⟨applied, fitted⟩ | ⟨w, fitted, changed⟩ | ⟨-, problem, w, made, left,
    -, fitted, -⟩
  · rw [fitted] at came ⊢
    cases came
    constructor
    · intro wears
      refine .inr ?_
      by_contra begun
      rw [Bool.not_eq_false] at begun
      exact (wears .root).2 (hf.given t applied begun)
    · rintro (new | begun)
      · cases new
      · exact hf.worn t applied begun
  · rw [fitted] at came ⊢
    cases came
    rw [hf.changes_eq t] at changed
    exact ⟨fun _ => .inl rfl, fun _ => changed ▸ wears_changeAll differ t _⟩
  · rw [fitted] at came
    cases came

end Fitting
end ThemeClasses

/-! ### Pages -/

namespace Page

def outfit (p : Page) : Outfit
  | .root => (· ∈ p.rootClasses)
  | .body => (· ∈ p.bodyClasses)

theorem mem_withClass {name other : String} {on : Bool} {classes : List String} :
    other ∈ withClass name on classes ↔ if other = name then on = true else other ∈ classes := by
  unfold withClass
  by_cases same : other = name
  · subst same
    cases on
    · simp
    · by_cases there : other ∈ classes <;> simp [there]
  · cases on
    · simp [same]
    · by_cases there : name ∈ classes <;> simp [same, there]

theorem outfit_obey (p : Page) (s : Surface) (name : String) (on : Bool) :
    (p.obey (.setClass s name on)).outfit = p.outfit.change (s, name, on) := by
  funext s' name'
  cases s <;> cases s' <;> simp [outfit, obey, Outfit.change, mem_withClass]

theorem dresses : Dresses Page.document Page.outfit where
  set s name on p ok := by
    simp only [Page.document, Page.call] at ok ⊢
    split at ok
    · rename_i admitted
      rw [if_pos admitted]
      exact p.outfit_obey s name on
    · cases ok
  refused s name on p problem refused := by
    simp only [Page.document, Page.call] at refused ⊢
    split at refused
    · cases refused
    · rename_i beyond
      rw [if_neg beyond]
      rfl

end Page

theorem Preview.dresses : Dresses Preview.document fun s => s.page.outfit where
  set s name on w := Page.dresses.set s name on w.page
  refused s name on w := Page.dresses.refused s name on w.page

namespace ThemeClasses.Fitting

/-- A preview applies a theme to the classes of its page. -/
theorem ends_apply {same : Signal → Signal → Bool} {perform : Doer Duty Signal Preview} {g : System}
    (c : ThemeClasses) (t : Theme) (begun : Bool) : (c.apply t).Ends same perform g fun r g' =>
      let u := fit Preview.document ⟨c, g.world, begun⟩ t
      r = (u.1, u.2.classes) ∧ g'.world = u.2.world :=
  Dialogue.ends_perform (c.put t)

/-- Light is applied, dark is refused at its second change, and light counts as applied: the root
has both classes. -/
theorem worn_iff_given_up :
    let c : ThemeClasses := ⟨"light-theme", "dark-theme", none⟩
    let f := fitAll Page.document ⟨c, ({} : Page).allow .setClass (some 5), false⟩ [.light, .dark]
    (f.fit Page.document .light).1 = .ok false ∧
    ¬c.Wears .light (f.fit Page.document .light).2.world.outfit := by
  intro c f
  have came : (f.fit Page.document .light).1 = .ok false := by decide +kernel
  have worn := worn_iff Page.dresses (c := c) (by decide) rfl (({} : Page).allow .setClass (some 5))
    [.light, .dark] .light came
  have begun : f.begun = true := by decide +kernel
  refine ⟨came, fun wears => ?_⟩
  rcases worn.1 wears with new | untouched
  · cases new
  · rw [begun] at untouched
    cases untouched

end ThemeClasses.Fitting
end StoryPreview
