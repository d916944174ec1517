import StoryPreview.Proofs.Reactive.Attending
/-!
What runs come to, one thing at a time. Between announcements a run only ticks: it adds a cell,
attaches or gives up a listener, starts or ends a run of an effect. A relation between states that
each tick respects, and each change of the world that programs make, and each write with its
announcement, is respected by whole runs, however deep they nest.
-/
namespace StoryPreview.Reactive
variable {B V W α β : Type}

namespace Graph

/-- What a run does at a time, apart from announcements, calls and changes of the world. The
listeners that it attaches have reactions of a certain kind. -/
inductive Tick (apt : B → Prop) (g : Graph B V W) : Graph B V W → Prop
  | aside {g' : Graph B V W} {news : List (Option Span × Event V)} (parts : g.SameParts g')
    (world : g'.world = g.world)
    (history : g'.history = news ++ g.history) (quiet : ∀ e ∈ news, e.2.IsQuiet) : Tick apt g g'
  | addCell (v : V) : Tick apt g (g.addCell v).2
  | subscribe (c : CellId) {b : B} (fit : apt b) : Tick apt g (g.subscribe c (.call b)).2
  | release (l : ListenerId) : Tick apt g (g.release l)
  | addEffect (body : B) : Tick apt g (g.addEffect body).2
  | start (e : EffectId) (x : Effect B) : Tick apt g (g.start e x)
  | finish (e : EffectId) : Tick apt g (g.finish e)
  | dispose (e : EffectId) : Tick apt g (g.dispose e)
  | drop (e : EffectId) : Tick apt g (g.drop e)

variable {apt : B → Prop} {g g' : Graph B V W}

theorem Tick.still (parts : g.SameParts g') (world : g'.world = g.world)
    (history : g'.history = g.history) :
    g.Tick apt g' := .aside parts world (show g'.history = [] ++ g.history from history) nofun

theorem Tick.track (g : Graph B V W) (c : CellId) : g.Tick apt (g.track c) := by
  refine .still ⟨g.track_cells c, g.track_listeners c, g.track_effects c⟩ (g.track_world c) ?_
  unfold Graph.track
  split
  · split <;> rfl
  · rfl

theorem Tick.record {e : Event V} (quiet : e.IsQuiet) : g.Tick apt (g.record e) :=
  .aside ⟨rfl, rfl, rfl⟩ rfl (show _ = [(g.span, e)] ++ g.history from rfl) (by simpa using quiet)

end Graph

namespace Program

/-- A program that is started in a world changes it in allowed ways only, and attaches only
listeners with apt reactions. What it sets off may leave any world. -/
def Fits (allowed : W → W → Prop) (apt : B → Prop) : Program B V W α → W → Prop
  | .done _, _ => True
  | .create _ next, w => ∀ c, (next c).Fits allowed apt w
  | .read _ next, w => ∀ v, (next v).Fits allowed apt w
  | .inspect _ next, w => ∀ x, (next x).Fits allowed apt w
  | .write _ _ next, _ => ∀ w, next.Fits allowed apt w
  | .untracked _ next, _ => ∀ w, next.Fits allowed apt w
  | .subscribe _ reaction next, w => apt reaction ∧ ∀ l, (next l).Fits allowed apt w
  | .release _ next, w => next.Fits allowed apt w
  | .spawn _ next, _ => ∀ e w, (next e).Fits allowed apt w
  | .dispose _ next, w => next.Fits allowed apt w
  | .drop _ next, w => next.Fits allowed apt w
  | .examine _ next, w => ∀ x, (next x).Fits allowed apt w
  | .ask next, w => (next w).Fits allowed apt w
  | .change f next, w => allowed w (f w) ∧ next.Fits allowed apt (f w)
  | .report _ next, w => next.Fits allowed apt w
  | .within _ next, w => next.Fits allowed apt w

variable {allowed : W → W → Prop} {apt : B → Prop} {w : W}

theorem Fits.bind {p : Program B V W α} (h : p.Fits allowed apt w) {f : α → Program B V W β}
    (hf : ∀ a w, (f a).Fits allowed apt w) : (p.bind f).Fits allowed apt w := by
  induction p generalizing w with
  | done a => exact hf a w
  | create v next ih => exact fun c => ih c (h c)
  | read c next ih => exact fun v => ih v (h v)
  | inspect c next ih => exact fun x => ih x (h x)
  | write c v next ih => exact fun w => ih (h w)
  | untracked body next ih => exact fun w => ih (h w)
  | subscribe c reaction next ih => exact ⟨h.1, fun l => ih l (h.2 l)⟩
  | release l next ih => exact ih h
  | spawn body next ih => exact fun e w => ih e (h e w)
  | dispose e next ih => exact ih h
  | drop e next ih => exact ih h
  | examine e next ih => exact fun x => ih x (h x)
  | ask next ih => exact ih w h
  | change f next ih => exact ⟨h.1, ih h.2⟩
  | report n next ih => exact ih h
  | within span next ih => exact ih h

/-- Where everything is allowed and apt, every program fits. -/
theorem fits_of_all (all : ∀ w w', allowed w w') (every : ∀ b, apt b) (p : Program B V W α)
    (w : W) : p.Fits allowed apt w := by
  induction p generalizing w with
  | done a => trivial
  | create v next ih => exact fun c => ih c w
  | read c next ih => exact fun v => ih v w
  | inspect c next ih => exact fun x => ih x w
  | write c v next ih => exact ih
  | untracked body next ih => exact ih
  | subscribe c reaction next ih => exact ⟨every reaction, fun l => ih l w⟩
  | release l next ih => exact ih w
  | spawn body next ih => exact ih
  | dispose e next ih => exact ih w
  | drop e next ih => exact ih w
  | examine e next ih => exact fun x => ih x w
  | ask next ih => exact ih w w
  | change f next ih => exact ⟨all w (f w), ih (f w)⟩
  | report n next ih => exact ih w
  | within span next ih => exact ih w

end Program

def Announces (told : ListenerId → V → Graph B V W → Graph B V W → Prop) (v : V) :
    List ListenerId → Graph B V W → Graph B V W → Prop
  | [], g, g' => g = g'
  | l :: ls, g, g' => ∃ g₁, told l v g g₁ ∧ Announces told v ls g₁ g'

/-- A relation that everything that runs do at a time respects, where calls come to what `told`
says. -/
structure Course (same : V → V → Bool) (allowed : W → W → Prop) (apt : B → Prop)
    (rel : Graph B V W → Graph B V W → Prop)
    (told : ListenerId → V → Graph B V W → Graph B V W → Prop) : Prop where
  refl : ∀ g, rel g g
  trans : ∀ {g g' g'' : Graph B V W}, rel g g' → rel g' g'' → rel g g''
  tick : ∀ {g g' : Graph B V W}, g.Tick apt g' → rel g g'
  change : ∀ {g : Graph B V W} {w : W}, allowed g.world w → rel g (g.withWorld w)
  write : ∀ {g g₁ g₂ : Graph B V W} {c : CellId} {v : V} {ls : List ListenerId},
    g.assign same c v = some (ls, g₁) → Announces told v ls g₁ g₂ → rel g (ls.foldl Graph.unpin g₂)

structure Keeping (rel : Graph B V W → Graph B V W → Prop)
    (told : ListenerId → V → Graph B V W → Graph B V W → Prop) (doer : Doer B V W) : Prop where
  call : ∀ {l : ListenerId} {v : V} {g g' : Graph B V W}, doer (.call l v) g = some g' →
    told l v g g'
  effect : ∀ {e : EffectId} {g g' : Graph B V W}, doer (.effect e) g = some g' → rel g g'
  untracked : ∀ {body : B} {g g' : Graph B V W}, doer (.untracked body) g = some g' → rel g g'

namespace Course
variable {m : Meaning B V W} {allowed : W → W → Prop} {apt : B → Prop}
    {rel : Graph B V W → Graph B V W → Prop}
variable {told : ListenerId → V → Graph B V W → Graph B V W → Prop} {doer : Doer B V W}
    {g g' : Graph B V W}

theorem announces (keeping : Keeping rel told doer) {v : V} {ls : List ListenerId}
    (ran : announce doer v ls g = some g') : Announces told v ls g g' := by
  induction ls generalizing g with
  | nil => exact Option.some.inj ran
  | cons l ls ih =>
    obtain ⟨g₁, called, rest⟩ := Option.bind_eq_some_iff.1 ran
    exact ⟨g₁, keeping.call called, ih rest⟩

variable (h : Course m.same allowed apt rel told)
include h

theorem run (keeping : Keeping rel told doer) {p : Program B V W α} {a : α}
    (fits : p.Fits allowed apt g.world) (ran : p.run m.same doer g = some (a, g')) : rel g g' := by
  induction p generalizing g with
  | done b =>
    obtain ⟨-, rfl⟩ := Prod.mk.inj (Option.some.inj ran)
    exact h.refl g
  | create v next ih =>
    exact h.trans (h.tick (.addCell v)) (ih _ (g := (g.addCell v).2) (fits _) ran)
  | read c next ih =>
    obtain ⟨x, -, ran⟩ := Option.bind_eq_some_iff.1 ran
    exact h.trans (h.tick (.track g c)) (ih _ (by rw [Graph.track_world]; exact fits _) ran)
  | inspect c next ih =>
    obtain ⟨x, -, ran⟩ := Option.bind_eq_some_iff.1 ran
    exact ih _ (fits _) ran
  | write c v next ih =>
    obtain ⟨⟨ls, g₁⟩, assigned, ran⟩ := Option.bind_eq_some_iff.1 ran
    obtain ⟨g₂, announced, ran⟩ := Option.bind_eq_some_iff.1 ran
    exact h.trans (h.write assigned (announces keeping announced)) (ih (fits _) ran)
  | untracked body next ih =>
    obtain ⟨g₁, done, ran⟩ := Option.bind_eq_some_iff.1 ran
    exact h.trans (keeping.untracked done) (ih (fits _) ran)
  | subscribe c reaction next ih =>
    exact h.trans (h.tick (.subscribe c fits.1))
      (ih _ (g := (g.subscribe c (.call reaction)).2) (fits.2 _) ran)
  | release l next ih => exact h.trans (h.tick (.release l)) (ih (g := g.release l) fits ran)
  | spawn body next ih =>
    obtain ⟨g₁, done, ran⟩ := Option.bind_eq_some_iff.1 ran
    exact h.trans (h.tick (.addEffect body)) (h.trans (keeping.effect done) (ih _ (fits _ _) ran))
  | dispose e next ih =>
    exact h.trans (h.tick (.dispose e)) (ih (by rw [Graph.dispose_world]; exact fits) ran)
  | drop e next ih =>
    exact h.trans (h.tick (.drop e)) (ih (by rw [Graph.drop_world]; exact fits) ran)
  | examine e next ih =>
    obtain ⟨x, -, ran⟩ := Option.bind_eq_some_iff.1 ran
    exact ih _ (fits _) ran
  | ask next ih => exact ih _ fits ran
  | change f next ih =>
    exact h.trans (h.change (w := f g.world) fits.1) (ih (g := g.withWorld (f g.world)) fits.2 ran)
  | report n next ih =>
    exact h.trans (h.tick (.record (e := .noted n) trivial))
      (ih (g := g.record (.noted n)) fits ran)
  | within span next ih =>
    have within : g.Tick apt (g.withSpan span) := .still ⟨rfl, rfl, rfl⟩ rfl rfl
    exact h.trans (h.tick within) (ih (g := g.withSpan span) fits ran)

theorem rerun (keeping : Keeping rel told doer) (bodies : ∀ b w, (m.body b).Fits allowed apt w)
    {e : EffectId} (ran : Reactive.rerun m doer e g = some g') : rel g g' := by
  obtain ⟨x, -, ran⟩ := Option.bind_eq_some_iff.1 ran
  split at ran
  · obtain rfl := Option.some.inj ran
    exact h.refl g
  · obtain ⟨⟨a, g₁⟩, done, rfl⟩ := Option.map_eq_some_iff.1 ran
    have body := h.run keeping (bodies x.body _) done
    exact h.trans (h.tick (.start e x)) (h.trans body (h.tick (.finish e)))

/-- What a listener is for is done as the relation says, if its own body fits. -/
theorem react (keeping : Keeping rel told doer) (bodies : ∀ b w, (m.body b).Fits allowed apt w)
    {v : V} {r : Reaction B} (fits : ∀ b w, r = .call b → (m.reaction b v).Fits allowed apt w)
    (ran : Reactive.react m doer v g r = some g') : rel g g' := by
  cases r with
  | call b =>
    obtain ⟨⟨a, g₁⟩, done, rfl⟩ := Option.map_eq_some_iff.1 ran
    exact h.run keeping (fits b _ rfl) done
  | rerun e epoch =>
    obtain ⟨x, -, ran⟩ := Option.bind_eq_some_iff.1 ran
    split at ran
    · obtain rfl := Option.some.inj ran
      exact h.refl g
    · split at ran
      · obtain rfl := Option.some.inj ran
        exact h.tick (.record trivial)
      · exact h.rerun keeping bodies ran

variable (bodies : ∀ b w, (m.body b).Fits allowed apt w)
variable (call : ∀ {doer : Doer B V W}, Keeping rel told doer →
      ∀ {l : ListenerId} {v : V} {g g' : Graph B V W}
  {y : Listener B}, g.listeners[l]? = some y →
    Reactive.react m doer v (g.record (.called l v)) y.reaction = some g' → told l v g g')
include bodies call

/-- Tasks nest as deep as they like. -/
theorem perform (depth : Nat) : Keeping rel told (Reactive.perform m depth) := by
  -- What a task starts is a task of a smaller depth.
  induction depth with
  | zero => exact ⟨nofun, nofun, nofun⟩
  | succ depth ih =>
    constructor
    case call =>
      intro l v g g' ran
      obtain ⟨y, hy, ran⟩ := Option.bind_eq_some_iff.1 ran
      exact call ih hy ran
    case effect => exact fun ran => h.rerun ih bodies ran
    case untracked =>
      intro body g g' ran
      obtain ⟨⟨a, g₁⟩, done, rfl⟩ := Option.map_eq_some_iff.1 ran
      have before : g.Tick apt { g with scopes := .untracked :: g.scopes } :=
        .still ⟨rfl, rfl, rfl⟩ rfl rfl
      have after : g₁.Tick apt { g₁ with scopes := g₁.scopes.tail } :=
        .still ⟨rfl, rfl, rfl⟩ rfl rfl
      exact h.trans (h.tick before) (h.trans (h.run ih (bodies body _) done) (h.tick after))

/-- Programs that are run from outside one after the other. -/
theorem runAll {calls : List (Nat × Program B V W Unit)}
    (fits : ∀ call ∈ calls, ∀ w, call.2.Fits allowed apt w)
    (ran : Reactive.runAll m calls g = some g') : rel g g' := by
  induction calls generalizing g with
  | nil =>
    obtain rfl := Option.some.inj ran
    exact h.refl g
  | cons call' calls ih =>
    obtain ⟨first, others⟩ := List.forall_mem_cons.1 fits
    obtain ⟨⟨a, g₁⟩, done, ran⟩ := Option.bind_eq_some_iff.1 ran
    exact h.trans (h.run (h.perform bodies call call'.1) (first _) done) (ih others ran)

end Course
end StoryPreview.Reactive
