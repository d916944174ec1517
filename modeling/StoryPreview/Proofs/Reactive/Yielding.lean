import StoryPreview.Proofs.Reactive.Ending
import StoryPreview.Proofs.Reactive.Moves
/-!
What programs make of the world. `p.Yields rely Q w` says that a program that is started in the
world `w` comes to a value and a world that satisfy `Q`, if it comes to an end, and whatever the
cells and effects are; what it sets off may change the world in between as `rely` allows. The
program is followed through its text, and the world from change to change.
-/
namespace StoryPreview.Reactive
variable {B V W α β : Type} {rely : W → W → Prop} {Q R : α → W → Prop} {w : W}

namespace Program

/-- If the program comes to an end, it does so with a value and a world that satisfy `Q`. -/
def Yields (rely : W → W → Prop) (Q : α → W → Prop) : Program B V W α → W → Prop
  | .done a, w => Q a w
  | .create _ next, w => ∀ c, (next c).Yields rely Q w
  | .read _ next, w => ∀ v, (next v).Yields rely Q w
  | .inspect _ next, w => ∀ x, (next x).Yields rely Q w
  | .write _ _ next, w => ∀ w', rely w w' → next.Yields rely Q w'
  | .untracked _ next, w => ∀ w', rely w w' → next.Yields rely Q w'
  | .subscribe _ _ next, w => ∀ l, (next l).Yields rely Q w
  | .release _ next, w => next.Yields rely Q w
  | .spawn _ next, w => ∀ e w', rely w w' → (next e).Yields rely Q w'
  | .dispose _ next, w => next.Yields rely Q w
  | .drop _ next, w => next.Yields rely Q w
  | .examine _ next, w => ∀ x, (next x).Yields rely Q w
  | .ask next, w => (next w).Yields rely Q w
  | .change f next, w => next.Yields rely Q (f w)
  | .report _ next, w => next.Yields rely Q w
  | .within _ next, w => next.Yields rely Q w

theorem Yields.imp {p : Program B V W α} (h : p.Yields rely Q w) (hQ : ∀ a w', Q a w' → R a w') :
    p.Yields rely R w := by
  induction p generalizing w with
  | done a => exact hQ a w h
  | create v next ih => exact fun c => ih c (h c)
  | read c next ih => exact fun v => ih v (h v)
  | inspect c next ih => exact fun x => ih x (h x)
  | write c v next ih => exact fun w' hw => ih (h w' hw)
  | untracked body next ih => exact fun w' hw => ih (h w' hw)
  | subscribe c reaction next ih => exact fun l => ih l (h l)
  | release l next ih => exact ih h
  | spawn body next ih => exact fun e w' hw => ih e (h e w' hw)
  | dispose e next ih => exact ih h
  | drop e next ih => exact ih h
  | examine e next ih => exact fun x => ih x (h x)
  | ask next ih => exact ih w h
  | change f next ih => exact ih h
  | report n next ih => exact ih h
  | within span next ih => exact ih h

@[simp] theorem yields_done {a : α} : (done a : Program B V W α).Yields rely Q w ↔ Q a w := .rfl

@[simp] theorem yields_pure {a : α} : (pure a : Program B V W α).Yields rely Q w ↔ Q a w := .rfl

@[simp] theorem yields_bind {p : Program B V W β} {f : β → Program B V W α} :
    (p >>= f).Yields rely Q w ↔ p.Yields rely (fun b w' => (f b).Yields rely Q w') w := by
  change (p.bind f).Yields rely Q w ↔ _
  induction p generalizing w with
  | done b => rfl
  | create v next ih => exact forall_congr' fun c => ih c
  | read c next ih => exact forall_congr' fun v => ih v
  | inspect c next ih => exact forall_congr' fun x => ih x
  | write c v next ih => exact forall_congr' fun w' => forall_congr' fun _ => ih
  | untracked body next ih => exact forall_congr' fun w' => forall_congr' fun _ => ih
  | subscribe c reaction next ih => exact forall_congr' fun l => ih l
  | release l next ih => exact ih
  | spawn body next ih =>
    exact forall_congr' fun e => forall_congr' fun w' => forall_congr' fun _ => ih e
  | dispose e next ih => exact ih
  | drop e next ih => exact ih
  | examine e next ih => exact forall_congr' fun x => ih x
  | ask next ih => exact ih w
  | change f next ih => exact ih
  | report n next ih => exact ih
  | within span next ih => exact ih

@[simp] theorem yields_create {v : V} {next : CellId → Program B V W α} :
    (create v next).Yields rely Q w ↔ ∀ c, (next c).Yields rely Q w := .rfl

@[simp] theorem yields_inspect {c : CellId} {next : CellView V → Program B V W α} :
    (inspect c next).Yields rely Q w ↔ ∀ x, (next x).Yields rely Q w := .rfl

@[simp] theorem yields_subscribe {c : CellId} {reaction : B} {next : ListenerId → Program B V W α} :
    (subscribe c reaction next).Yields rely Q w ↔ ∀ l, (next l).Yields rely Q w := .rfl

@[simp] theorem yields_release {l : ListenerId} {next : Program B V W α} :
    (release l next).Yields rely Q w ↔ next.Yields rely Q w := .rfl

@[simp] theorem yields_spawn {body : B} {next : EffectId → Program B V W α} :
    (spawn body next).Yields rely Q w ↔ ∀ e w', rely w w' → (next e).Yields rely Q w' := .rfl

@[simp] theorem yields_dispose {e : EffectId} {next : Program B V W α} :
    (dispose e next).Yields rely Q w ↔ next.Yields rely Q w := .rfl

@[simp] theorem yields_drop {e : EffectId} {next : Program B V W α} :
    (drop e next).Yields rely Q w ↔ next.Yields rely Q w := .rfl

end Program

structure Meaning.Abides (m : Meaning B V W) (rely : W → W → Prop) : Prop where
  refl : ∀ w, rely w w
  trans : ∀ {w w' w'' : W}, rely w w' → rely w' w'' → rely w w''
  body : ∀ b w, (m.body b).Yields rely (fun _ w' => rely w w') w
  reaction : ∀ b v w, (m.reaction b v).Yields rely (fun _ w' => rely w w') w

/-! ### Runs -/

def Loyal (rely : W → W → Prop) (perform : Doer B V W) : Prop :=
  ∀ {task : Task B V} {g g' : Graph B V W}, perform task g = some g' → rely g.world g'.world

theorem Graph.assign_world {same : V → V → Bool} {g g' : Graph B V W} {c : CellId} {v : V}
    {ls : List ListenerId} (h : g.assign same c v = some (ls, g')) : g'.world = g.world := by
  obtain ⟨x, hx, -⟩ := Option.map_eq_some_iff.1 h
  by_cases hs : same x.value v = true
  · obtain ⟨-, rfl⟩ := Prod.mk.inj (Option.some.inj ((Graph.assign_same hx hs).symm.trans h))
    rfl
  · obtain ⟨g₁, changed, alike⟩ := Graph.assign_changed hx (Bool.eq_false_iff.2 hs)
    obtain ⟨-, rfl⟩ := Prod.mk.inj (Option.some.inj (changed.symm.trans h))
    exact alike.world

namespace Meaning.Abides
variable {m : Meaning B V W} {doer : Doer B V W} {g g' : Graph B V W}

theorem announce (h : m.Abides rely) (loyal : Loyal rely doer) {v : V} {ls : List ListenerId}
    (ran : Reactive.announce doer v ls g = some g') : rely g.world g'.world := by
  induction ls generalizing g with
  | nil =>
    obtain rfl := Option.some.inj ran
    exact h.refl _
  | cons l ls ih =>
    obtain ⟨g₁, called, rest⟩ := Option.bind_eq_some_iff.1 ran
    exact h.trans (loyal called) (ih rest)

/-- A run brings about what the program yields from the world in which it starts. -/
theorem run (h : m.Abides rely) (loyal : Loyal rely doer) {p : Program B V W α} {a : α}
    (yields : p.Yields rely Q g.world) (ran : p.run m.same doer g = some (a, g')) :
    Q a g'.world := by
  induction p generalizing g with
  | done b =>
    obtain ⟨rfl, rfl⟩ := Prod.mk.inj (Option.some.inj ran)
    exact yields
  | create v next ih => exact ih _ (g := (g.addCell v).2) (yields _) ran
  | read c next ih =>
    obtain ⟨x, -, ran⟩ := Option.bind_eq_some_iff.1 ran
    exact ih _ (by rw [Graph.track_world]; exact yields _) ran
  | inspect c next ih =>
    obtain ⟨x, -, ran⟩ := Option.bind_eq_some_iff.1 ran
    exact ih _ (yields _) ran
  | write c v next ih =>
    obtain ⟨⟨ls, g₁⟩, assigned, ran⟩ := Option.bind_eq_some_iff.1 ran
    obtain ⟨g₂, announced, ran⟩ := Option.bind_eq_some_iff.1 ran
    have told : rely g₁.world g₂.world := h.announce loyal announced
    have unpinned := (Graph.Alike.foldl Graph.Alike.unpin ls g₂).world
    refine ih ?_ ran
    rw [unpinned]
    exact yields _ (Graph.assign_world assigned ▸ told)
  | untracked body next ih =>
    obtain ⟨g₁, done, ran⟩ := Option.bind_eq_some_iff.1 ran
    exact ih (yields _ (loyal done)) ran
  | subscribe c reaction next ih =>
    exact ih _ (g := (g.subscribe c (.call reaction)).2) (yields _) ran
  | release l next ih => exact ih (g := g.release l) yields ran
  | spawn body next ih =>
    obtain ⟨g₁, done, ran⟩ := Option.bind_eq_some_iff.1 ran
    have spawned : rely (g.addEffect body).2.world g₁.world := loyal done
    exact ih _ (yields _ _ spawned) ran
  | dispose e next ih => exact ih (by rw [Graph.dispose_world]; exact yields) ran
  | drop e next ih => exact ih (by rw [Graph.drop_world]; exact yields) ran
  | examine e next ih =>
    obtain ⟨x, -, ran⟩ := Option.bind_eq_some_iff.1 ran
    exact ih _ (yields _) ran
  | ask next ih => exact ih _ yields ran
  | change f next ih => exact ih (g := g.withWorld (f g.world)) yields ran
  | report n next ih => exact ih (g := g.record (.noted n)) yields ran
  | within span next ih => exact ih (g := g.withSpan span) yields ran

theorem rerun (h : m.Abides rely) (loyal : Loyal rely doer) {e : EffectId}
    (ran : Reactive.rerun m doer e g = some g') : rely g.world g'.world := by
  obtain ⟨x, -, ran⟩ := Option.bind_eq_some_iff.1 ran
  split at ran
  · obtain rfl := Option.some.inj ran
    exact h.refl _
  · obtain ⟨⟨a, g₁⟩, done, rfl⟩ := Option.map_eq_some_iff.1 ran
    have body := h.body x.body (g.start e x).world
    rw [Logged.finish_world, ← Graph.start_world (g := g) (e := e) (x := x)]
    exact h.run (Q := fun _ => rely (g.start e x).world) loyal body done

theorem react (h : m.Abides rely) (loyal : Loyal rely doer) {v : V} {r : Reaction B}
    (ran : Reactive.react m doer v g r = some g') : rely g.world g'.world := by
  cases r with
  | call b =>
    obtain ⟨⟨a, g₁⟩, done, rfl⟩ := Option.map_eq_some_iff.1 ran
    exact h.run (Q := fun _ => rely g.world) loyal (h.reaction b v g.world) done
  | rerun e epoch =>
    obtain ⟨x, -, ran⟩ := Option.bind_eq_some_iff.1 ran
    split at ran
    · obtain rfl := Option.some.inj ran
      exact h.refl _
    · split at ran
      · obtain rfl := Option.some.inj ran
        exact h.refl _
      · exact h.rerun loyal ran

theorem loyal (h : m.Abides rely) (depth : Nat) : Loyal rely (perform m depth) := by
  induction depth with
  | zero =>
    intro task g g' ran
    cases ran
  | succ depth ih =>
    intro task g g' ran
    cases task with
    | call l v =>
      obtain ⟨y, -, ran⟩ := Option.bind_eq_some_iff.1 ran
      exact h.react ih (g := g.record (.called l v)) ran
    | effect e => exact h.rerun ih ran
    | untracked body =>
      obtain ⟨⟨a, g₁⟩, done, rfl⟩ := Option.map_eq_some_iff.1 ran
      have ended : rely g.world g₁.world :=
        h.run (Q := fun _ => rely g.world) ih (g := { g with scopes := .untracked :: g.scopes })
          (h.body body g.world) done
      exact ended

/-- What a program yields comes about when it is run from outside. -/
theorem exec (h : m.Abides rely) {p : Program B V W α} {a : α} (yields : p.Yields rely Q g.world)
    (ran : p.exec m g = some (a, g')) : Q a g'.world :=
  h.run (h.loyal depthLimit) yields ran

end Meaning.Abides
end StoryPreview.Reactive
