import StoryPreview.Proofs.Reactive.Calm
/-!
What is reported does not matter: states that differ only in what has been reported go on in the
same way.
-/
namespace StoryPreview.Reactive
variable {B V W α : Type}

structure Graph.Reports (g g' : Graph B V W) : Prop where
  parts : g.SameParts g'
  scopes : g'.scopes = g.scopes
  world : g'.world = g.world

namespace Graph.Reports
variable {g g' g'' : Graph B V W}

theorem refl (g : Graph B V W) : g.Reports g := ⟨⟨rfl, rfl, rfl⟩, rfl, rfl⟩

theorem symm (h : g.Reports g') : g'.Reports g :=
  ⟨⟨h.parts.cells.symm, h.parts.listeners.symm, h.parts.effects.symm⟩, h.scopes.symm, h.world.symm⟩

theorem trans (h : g.Reports g') (h' : g'.Reports g'') : g.Reports g'' :=
  ⟨⟨h'.parts.cells.trans h.parts.cells, h'.parts.listeners.trans h.parts.listeners,
    h'.parts.effects.trans h.parts.effects⟩, h'.scopes.trans h.scopes, h'.world.trans h.world⟩

theorem record (g : Graph B V W) (e : Event V) : g.Reports (g.record e) :=
  ⟨⟨rfl, rfl, rfl⟩, rfl, rfl⟩

theorem recordAll (g : Graph B V W) (ns : List Note) : g.Reports (g.recordAll ns) :=
  ⟨⟨by simp, by simp, by simp⟩, by simp, by simp⟩

theorem withSpan (g : Graph B V W) (span : Option Span) : g.Reports (g.withSpan span) :=
  ⟨⟨rfl, rfl, rfl⟩, rfl, rfl⟩

theorem value_eq [Inhabited V] (h : g.Reports g') : g'.value = g.value :=
  Graph.value_congr h.parts.cells

theorem exists_eq (h : g.Reports g') :
    ∃ span history, g' = { g with span := span, history := history } := by
  obtain ⟨⟨cells, listeners, effects⟩, scopes, world⟩ := h
  refine ⟨g'.span, g'.history, ?_⟩
  cases g'
  simp_all

/-! What the steps of a system do alike. -/

theorem recorded (h : g.Reports g') (e e' : Event V) : (g.record e).Reports (g'.record e') :=
  (Reports.record g e).symm.trans (h.trans (.record g' e'))

theorem addCell (h : g.Reports g') (v : V) : (g.addCell v).2.Reports (g'.addCell v).2 := by
  obtain ⟨span, history, rfl⟩ := h.exists_eq
  exact ⟨⟨rfl, rfl, rfl⟩, rfl, rfl⟩

theorem addEffect (h : g.Reports g') (b : B) : (g.addEffect b).2.Reports (g'.addEffect b).2 := by
  obtain ⟨span, history, rfl⟩ := h.exists_eq
  exact ⟨⟨rfl, rfl, rfl⟩, rfl, rfl⟩

theorem subscribe (h : g.Reports g') (c : CellId) (r : Reaction B) :
    (g.subscribe c r).2.Reports (g'.subscribe c r).2 := by
  obtain ⟨span, history, rfl⟩ := h.exists_eq
  exact ⟨⟨rfl, rfl, rfl⟩, rfl, rfl⟩

theorem release (h : g.Reports g') (l : ListenerId) : (g.release l).Reports (g'.release l) := by
  obtain ⟨span, history, rfl⟩ := h.exists_eq
  exact ⟨⟨rfl, rfl, rfl⟩, rfl, rfl⟩

theorem pin (h : g.Reports g') (l : ListenerId) : (g.pin l).Reports (g'.pin l) := by
  obtain ⟨span, history, rfl⟩ := h.exists_eq
  exact ⟨⟨rfl, rfl, rfl⟩, rfl, rfl⟩

theorem unpin (h : g.Reports g') (l : ListenerId) : (g.unpin l).Reports (g'.unpin l) := by
  obtain ⟨span, history, rfl⟩ := h.exists_eq
  exact ⟨⟨rfl, rfl, rfl⟩, rfl, rfl⟩

theorem withWorld (h : g.Reports g') (w : W) : (g.withWorld w).Reports (g'.withWorld w) := by
  obtain ⟨span, history, rfl⟩ := h.exists_eq
  exact ⟨⟨rfl, rfl, rfl⟩, rfl, rfl⟩

theorem withEffects (h : g.Reports g') (effects : List (Effect B)) :
    ({ g with effects := effects } : Graph B V W).Reports { g' with effects := effects } := by
  obtain ⟨span, history, rfl⟩ := h.exists_eq
  exact ⟨⟨rfl, rfl, rfl⟩, rfl, rfl⟩

theorem withScopes (h : g.Reports g') (scopes : List Scope) :
    ({ g with scopes := scopes } : Graph B V W).Reports { g' with scopes := scopes } := by
  obtain ⟨span, history, rfl⟩ := h.exists_eq
  exact ⟨⟨rfl, rfl, rfl⟩, rfl, rfl⟩

theorem track (h : g.Reports g') (c : CellId) : (g.track c).Reports (g'.track c) := by
  unfold Graph.track
  rw [h.scopes]
  split
  · split
    · exact h
    · exact h.withScopes _
  · exact h

/-- Something that is done with each listener of a list. -/
theorem foldl (h : g.Reports g') {f : Graph B V W → ListenerId → Graph B V W}
    (hf : ∀ {g g' : Graph B V W}, g.Reports g' → ∀ l, (f g l).Reports (f g' l))
    (ls : List ListenerId) :
    (ls.foldl f g).Reports (ls.foldl f g') := by
  induction ls generalizing g g' with
  | nil => exact h
  | cons l ls ih => exact ih (hf h l)

theorem releaseAll (h : g.Reports g') (ls : List ListenerId) :
    (g.releaseAll ls).Reports (g'.releaseAll ls) :=
  h.foldl release ls

theorem cellView? (h : g.Reports g') (c : CellId) : g'.cellView? c = g.cellView? c := by
  obtain ⟨span, history, rfl⟩ := h.exists_eq
  rfl

theorem effectView? (h : g.Reports g') (e : EffectId) : g'.effectView? e = g.effectView? e := by
  obtain ⟨span, history, rfl⟩ := h.exists_eq
  rfl

theorem dispose (h : g.Reports g') (e : EffectId) : (g.dispose e).Reports (g'.dispose e) := by
  unfold Graph.dispose
  rw [h.parts.effects]
  split
  · exact h
  · rename_i x hx
    split
    · exact h
    · have released := h.releaseAll x.subscriptions
      simp only [releaseAll_effects, h.parts.effects]
      exact released.withEffects _

theorem drop (h : g.Reports g') (e : EffectId) : (g.drop e).Reports (g'.drop e) := by
  have disposed := h.dispose e
  unfold Graph.drop
  simp only [disposed.parts.effects]
  exact disposed.withEffects _

theorem assign (h : g.Reports g') (same : V → V → Bool) (c : CellId) (v : V) {ls : List ListenerId}
    {k : Graph B V W} (hk : g.assign same c v = some (ls, k)) :
    ∃ k', g'.assign same c v = some (ls, k') ∧ k.Reports k' := by
  obtain ⟨span, history, rfl⟩ := h.exists_eq
  simp only [Graph.assign, Option.map_eq_some_iff] at hk ⊢
  obtain ⟨x, hx, hk⟩ := hk
  split at hk
  · rename_i hs
    cases hk
    exact ⟨_, ⟨x, hx, by simp only [hs, if_true]⟩, h⟩
  · rename_i hs
    cases hk
    refine ⟨_, ⟨x, hx, by simp only [hs]; rfl⟩, Reports.foldl (f := Graph.pin) ?_ pin _⟩
    exact ⟨⟨rfl, rfl, rfl⟩, rfl, rfl⟩

theorem start (h : g.Reports g') (e : EffectId) (x : Effect B) :
    (g.start e x).Reports (g'.start e x) := by
  obtain ⟨span, history, released⟩ := (h.releaseAll x.subscriptions).exists_eq
  unfold Graph.start
  dsimp only
  rw [released]
  exact ⟨⟨rfl, rfl, rfl⟩, rfl, rfl⟩

theorem attach (h : g.Reports g') (e epoch : Nat) (cs : List CellId) :
    (g'.attach e epoch cs).1 = (g.attach e epoch cs).1 ∧
    (g.attach e epoch cs).2.Reports (g'.attach e epoch cs).2 := by
  induction cs generalizing g g' with
  | nil => exact ⟨rfl, h⟩
  | cons c cs ih =>
    obtain ⟨ids, reports⟩ := ih (h.subscribe c (.rerun e epoch))
    refine ⟨?_, reports⟩
    simp only [Graph.attach, ids]
    simp only [Graph.subscribe, h.parts.listeners]

theorem finish (h : g.Reports g') (e : EffectId) : (g.finish e).Reports (g'.finish e) := by
  obtain ⟨span, history, rfl⟩ := h.exists_eq
  have popped : g.pop.Reports (Graph.pop { g with span := span, history := history }) :=
    ⟨⟨rfl, rfl, rfl⟩, rfl, rfl⟩
  cases hx : g.effects[e]? with
  | none =>
    simp only [Graph.finish, hx]
    exact popped
  | some x =>
    cases hd : x.disposed with
    | true =>
      simp only [Graph.finish, hx, hd, if_true]
      exact ⟨⟨rfl, rfl, rfl⟩, rfl, rfl⟩
    | false =>
      obtain ⟨ids, attached⟩ := popped.attach e x.epoch g.reads
      rw [finish_eq hx hd, finish_eq (g := { g with span := span, history := history }) hx hd]
      dsimp only
      have reads : Graph.reads { g with span := span, history := history } = g.reads := rfl
      rw [reads, ids]
      exact (attached.withEffects _).recorded _ _

end Graph.Reports

/-- Tasks go on in the same way in states that differ only in what has been reported. -/
def Discreet (perform : Doer B V W) : Prop :=
  ∀ ⦃task : Task B V⦄ ⦃g g' k : Graph B V W⦄, g.Reports g' → perform task g = some k →
    ∃ k', perform task g' = some k' ∧ k.Reports k'

variable {same : V → V → Bool} {perform : Doer B V W}

theorem Discreet.announce (h : Discreet perform) {v : V} {ls : List ListenerId}
    {g g' k : Graph B V W} (hg : g.Reports g') (hk : announce perform v ls g = some k) :
    ∃ k', Reactive.announce perform v ls g' = some k' ∧ k.Reports k' := by
  induction ls generalizing g g' with
  | nil =>
    cases hk
    exact ⟨g', rfl, hg⟩
  | cons l ls ih =>
    simp only [Reactive.announce, Option.bind_eq_some_iff] at hk ⊢
    obtain ⟨m, hm, hk⟩ := hk
    obtain ⟨m', hm', reports⟩ := h hg hm
    obtain ⟨k', hk', reports'⟩ := ih reports hk
    exact ⟨k', ⟨m', hm', hk'⟩, reports'⟩

/-- A program that comes to an end does so too in a state that differs only in what has been
reported, with the same value. -/
theorem Program.Ends.reports (h : Discreet perform) {p : Program B V W α} {g g' : Graph B V W}
    {Q : α → Graph B V W → Prop} (hg : g.Reports g') (hp : p.Ends same perform g Q) :
    p.Ends same perform g' fun a k' => ∃ k, k.Reports k' ∧ Q a k := by
  induction p generalizing g g' with
  | done a => exact ends_done.2 ⟨g, hg, ends_done.1 hp⟩
  | create v next ih =>
    rw [ends_create] at hp ⊢
    rw [hg.parts.cells]
    exact ih _ (hg.addCell v) hp
  | read c next ih =>
    obtain ⟨x, hx, hp⟩ := ends_read.1 hp
    exact ends_read.2 ⟨x, by rw [hg.parts.cells, hx], ih _ (hg.track c) hp⟩
  | inspect c next ih =>
    obtain ⟨x, hx, hp⟩ := ends_inspect.1 hp
    exact ends_inspect.2 ⟨x, by rw [hg.cellView?, hx], ih _ hg hp⟩
  | write c v next ih =>
    obtain ⟨ls, m, hm, n, hn, hp⟩ := ends_write.1 hp
    obtain ⟨m', hm', assigned⟩ := hg.assign same c v hm
    obtain ⟨n', hn', announced⟩ := h.announce assigned hn
    exact ends_write.2 ⟨ls, m', hm', n', hn', ih (announced.foldl Graph.Reports.unpin ls) hp⟩
  | untracked body next ih =>
    obtain ⟨a, k, hr, hq⟩ := hp
    simp only [run, Option.bind_eq_some_iff] at hr
    obtain ⟨m, hm, hr⟩ := hr
    obtain ⟨m', hm', reports⟩ := h hg hm
    obtain ⟨a', k', hr', hq'⟩ := ih reports ⟨a, k, hr, hq⟩
    exact ⟨a', k', by simp [run, hm', hr'], hq'⟩
  | subscribe c reaction next ih =>
    rw [ends_subscribe] at hp ⊢
    rw [hg.parts.listeners]
    exact ih _ (hg.subscribe c _) hp
  | release l next ih => exact ends_release.2 (ih (hg.release l) (ends_release.1 hp))
  | spawn body next ih =>
    obtain ⟨m, hm, hp⟩ := ends_spawn.1 hp
    obtain ⟨m', hm', reports⟩ := h (hg.addEffect body) hm
    rw [← hg.parts.effects] at hm' hp
    exact ends_spawn.2 ⟨m', hm', ih _ reports hp⟩
  | dispose e next ih => exact ends_dispose.2 (ih (hg.dispose e) (ends_dispose.1 hp))
  | drop e next ih => exact ends_drop.2 (ih (hg.drop e) (ends_drop.1 hp))
  | examine e next ih =>
    obtain ⟨a, k, hr, hq⟩ := hp
    simp only [run, Option.bind_eq_some_iff] at hr
    obtain ⟨x, hx, hr⟩ := hr
    obtain ⟨a', k', hr', hq'⟩ := ih x hg ⟨a, k, hr, hq⟩
    exact ⟨a', k', by simp [run, hg.effectView?, hx, hr'], hq'⟩
  | ask next ih =>
    rw [ends_ask] at hp ⊢
    rw [hg.world]
    exact ih _ hg hp
  | change f next ih =>
    rw [ends_change] at hp ⊢
    rw [hg.world]
    exact ih (hg.withWorld _) hp
  | report n next ih => exact ends_report.2 (ih (hg.recorded _ _) (ends_report.1 hp))
  | within span next ih =>
    refine ends_within.2 (ih ?_ (ends_within.1 hp))
    exact (Graph.Reports.withSpan g span).symm.trans (hg.trans (.withSpan g' span))

variable {m : Meaning B V W}

theorem Discreet.rerun (h : Discreet perform) {e : EffectId} {g g' k : Graph B V W}
    (hg : g.Reports g') (hk : rerun m perform e g = some k) :
    ∃ k', Reactive.rerun m perform e g' = some k' ∧ k.Reports k' := by
  simp only [Reactive.rerun, Option.bind_eq_some_iff] at hk ⊢
  rw [hg.parts.effects]
  obtain ⟨x, hx, hk⟩ := hk
  split at hk
  · rename_i idle
    cases hk
    exact ⟨g', ⟨x, hx, by rw [if_pos idle]⟩, hg⟩
  · rename_i idle
    rw [Option.map_eq_some_iff] at hk
    obtain ⟨⟨a, r⟩, hr, rfl⟩ := hk
    obtain ⟨a', r', hr', s, reports, rfl⟩ :=
      Program.Ends.reports (Q := fun _ s => s = r) h (hg.start e x) ⟨a, r, hr, rfl⟩
    exact ⟨r'.finish e, ⟨x, hx, by rw [if_neg idle, hr']; rfl⟩, reports.finish e⟩

theorem Discreet.react (h : Discreet perform) {v : V} {r : Reaction B} {g g' k : Graph B V W}
    (hg : g.Reports g') (hk : react m perform v g r = some k) :
    ∃ k', Reactive.react m perform v g' r = some k' ∧ k.Reports k' := by
  cases r with
  | call body =>
    simp only [Reactive.react, Option.map_eq_some_iff] at hk ⊢
    obtain ⟨⟨a, r⟩, hr, rfl⟩ := hk
    obtain ⟨a', r', hr', s, reports, rfl⟩ :=
      Program.Ends.reports (Q := fun _ s => s = r) h hg ⟨a, r, hr, rfl⟩
    exact ⟨r', ⟨(a', r'), hr', rfl⟩, reports⟩
  | rerun e epoch =>
    simp only [Reactive.react, Option.bind_eq_some_iff] at hk ⊢
    rw [hg.parts.effects]
    obtain ⟨x, hx, hk⟩ := hk
    split at hk
    · rename_i gone
      cases hk
      exact ⟨g', ⟨x, hx, by rw [if_pos gone]⟩, hg⟩
    · rename_i there
      split at hk
      · rename_i old
        cases hk
        exact ⟨_, ⟨x, hx, by rw [if_neg there, if_pos old]⟩, hg.recorded _ _⟩
      · rename_i current
        obtain ⟨k', hk', reports⟩ := h.rerun hg hk
        exact ⟨k', ⟨x, hx, by rw [if_neg there, if_neg current, hk']⟩, reports⟩

/-- What is reported does not matter to any task. -/
theorem discreet_perform (m : Meaning B V W) (depth : Nat) :
    Discreet (Reactive.perform m depth) := by
  induction depth with
  | zero =>
    intro task g g' k _ hk
    cases hk
  | succ depth ih =>
    intro task g g' k hg hk
    cases task with
    | call l v =>
      simp only [Reactive.perform, Option.bind_eq_some_iff] at hk ⊢
      rw [hg.parts.listeners]
      obtain ⟨x, hx, hk⟩ := hk
      obtain ⟨k', hk', reports⟩ := ih.react (hg.recorded _ _) hk
      exact ⟨k', ⟨x, hx, hk'⟩, reports⟩
    | effect e => exact ih.rerun hg hk
    | untracked body =>
      simp only [Reactive.perform, Option.map_eq_some_iff] at hk ⊢
      obtain ⟨⟨a, r⟩, hr, rfl⟩ := hk
      rw [hg.scopes]
      obtain ⟨a', r', hr', s, reports, rfl⟩ :=
        Program.Ends.reports (Q := fun _ s => s = r) ih (hg.withScopes _) ⟨a, r, hr, rfl⟩
      refine ⟨_, ⟨(a', r'), hr', rfl⟩, ?_⟩
      rw [reports.scopes]
      exact reports.withScopes _

end StoryPreview.Reactive
