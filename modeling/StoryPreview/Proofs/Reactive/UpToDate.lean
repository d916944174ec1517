import StoryPreview.Proofs.Reactive.Freshness
/-!
No effect is left stale. When a cell has changed, the announcement reaches every effect that has
read it: either the captured listener makes it run again, or a nested change has done so before. A
listener of an older run is discarded only when a later run has been started, and by the end of that
run the effect has read what the cells have.
-/
namespace StoryPreview.Reactive
variable {B V W α : Type} {keeps : W → ListenerId → Prop} {m : Meaning B V W}

namespace Traced
variable {s s' s'' : Traced B V W} {perform : Tracer B V W}

/-- What a task is for: an effect that is run, or whose listener is called in time, is good
afterwards. -/
def Serves (task : Task B V) (s s' : Traced B V W) : Prop :=
  match task with
  | .call l _ =>
    ∀ {e : EffectId} {x : Effect B}, s.graph.effects[e]? = some x → s.graph.Targets l e x.epoch →
      s'.Good e
  | .effect e => s'.Good e
  | .untracked _ => True

def Faithful (keeps : W → ListenerId → Prop) (perform : Tracer B V W) : Prop :=
  ∀ {task : Task B V} {s s' : Traced B V W}, perform task s = some s' → s.Sound keeps →
    s.Completes keeps s' ∧ Serves task s s'

/-- After the announcement of a change all effects are good whose listeners were captured in
time. -/
theorem Faithful.announce (h : Faithful keeps perform) {v : V} {ls : List ListenerId}
    (announced : announceTraced perform v ls s = some s') (sound : s.Sound keeps) :
    s.Completes keeps s' ∧
      ∀ l ∈ ls, ∀ {e : EffectId} {x : Effect B}, s.graph.effects[e]? = some x →
      s.graph.Targets l e x.epoch →
        s'.Good e := by
  induction ls generalizing s with
  | nil =>
    obtain rfl := Option.some.inj announced
    exact ⟨sound.refl, by simp⟩
  | cons l ls ih =>
    obtain ⟨s₁, called, rest⟩ := Option.bind_eq_some_iff.1 announced
    obtain ⟨first, served⟩ := h called sound
    obtain ⟨others, reached⟩ := ih rest first.sound
    refine ⟨first.trans others, List.forall_mem_cons.2 ⟨fun hx target => ?_,
      fun k hk e x hx target => ?_⟩⟩
    · exact others.good (by simp) (served hx target)
    · obtain ⟨x₁, hx₁⟩ := first.exists_effect hx
      by_cases he : x₁.epoch = x.epoch
      · exact reached k hk hx₁ (he ▸ target.lasting first.lasting)
      · -- The effect has been started before its turn came: its listener will be discarded.
        exact others.good (by simp) (first.started (by simp) hx hx₁ he)

theorem Faithful.write (h : Faithful keeps perform) {same : V → V → Bool} {c : CellId} {v : V}
    {ls : List ListenerId} (assigned : s.assign same c v = some (ls, s'))
    (announced : announceTraced perform v ls s' = some s'') (sound : s.Sound keeps) :
    s.Completes keeps s'' := by
  have changed := sound.assign assigned
  obtain ⟨told, reached⟩ := h.announce announced changed.sound
  have same : s'.graph.effects = s.graph.effects := changed.effects
  refine ⟨⟨Graph.Lasting.trans changed.lasting told.lasting, ?_, fun ho hr => ?_, fun ho hg => ?_,
    fun ho hx hx'' hne => ?_⟩, told.sound, told.shape.trans changed.shape⟩
  · exact same ▸ told.present
  · exact told.resting ho fun x hx => hr x (same ▸ hx)
  · rcases changed.captured hg with good | ⟨x, hx, l, hl, target⟩
    · exact told.good ho good
    · exact reached l hl hx target
  · exact told.started ho (same.symm ▸ hx) hx'' hne

theorem Faithful.spawn (h : Faithful keeps perform) {body : B}
    (ran : perform (.effect s.graph.effects.length) (s.step fun g => (g.addEffect body).2) =
      some s')
    (sound : s.Sound keeps) : s.Completes keeps s' := by
  have sp := Graph.Spares.addEffect s.graph body
  have added : Sound keeps (s.step fun g => (g.addEffect body).2) :=
    sound.after sp rfl rfl (sound.tended.addEffect body) rfl
  have moved : s.Moves (some s.graph.effects.length) (s.step fun g => (g.addEffect body).2) :=
    .of_spares sp (by simp [Traced.step, Graph.addEffect]) fun _ => rfl
  obtain ⟨completed, good⟩ := h ran added
  refine ⟨(moved.trans (completed.except _)).close (fun _ => ?_) good, completed.sound,
    completed.shape⟩
  refine completed.resting (by simp) fun x hx => ?_
  simp only [Traced.step, Graph.addEffect, List.getElem?_concat_length] at hx
  rw [← Option.some.inj hx]

/-- Whatever an honest program does, it does completely. -/
theorem Faithful.program (h : Faithful keeps perform) {same : V → V → Bool} {p : Program B V W α}
    {own : ListenerId → Prop} {r : α × Traced B V W} (honest : p.Honest keeps own)
    (ran : p.trace same perform s = some r) (sound : s.Sound keeps)
    (plain : ∀ {l : ListenerId}, own l → s.graph.Plain l) :
    s.Completes keeps r.2 := by
  -- On the program; tasks that it gives away are complete because the doer is faithful.
  induction p generalizing s own with
  | done a =>
    obtain rfl := Option.some.inj ran
    exact sound.refl
  | create v next ih =>
    have created := sound.step (f := fun g => (g.addCell v).2) (.addCell s.graph v) rfl rfl rfl
    exact created.trans (ih _ (honest _) ran created.sound (created.plain plain))
  | read c next ih =>
    obtain ⟨z, hz, ran⟩ := Option.bind_eq_some_iff.1 ran
    have read := sound.read hz
    exact read.trans (ih _ (honest _) ran read.sound (read.plain plain))
  | inspect c next ih =>
    obtain ⟨x, -, ran⟩ := Option.bind_eq_some_iff.1 ran
    exact ih _ (honest _) ran sound plain
  | write c v next ih =>
    obtain ⟨⟨ls, s₁⟩, assigned, ran⟩ := Option.bind_eq_some_iff.1 ran
    obtain ⟨s₂, announced, ran⟩ := Option.bind_eq_some_iff.1 ran
    have written := h.write assigned announced sound
    have alike : s₂.graph.Alike (ls.foldl Graph.unpin s₂.graph) := .foldl .unpin ls s₂.graph
    have unpinned :=
      written.trans (written.sound.step (f := ls.foldl Graph.unpin) (.alike alike) alike.scopes
      alike.world alike.effects)
    exact unpinned.trans (ih honest ran unpinned.sound (unpinned.plain plain))
  | untracked body next ih =>
    obtain ⟨s₁, done, ran⟩ := Option.bind_eq_some_iff.1 ran
    have completed := (h done sound).1
    exact completed.trans (ih honest ran completed.sound (completed.plain plain))
  | subscribe c reaction next ih =>
    have attached := sound.step (f := fun g => (g.subscribe c (.call reaction)).2)
      (.subscribe s.graph c (.call reaction)) rfl rfl rfl
    refine attached.trans (ih _ (honest _) ran attached.sound fun hl => ?_)
    rcases hl with rfl | hl
    · exact ⟨_, reaction, Graph.subscribe_listener_new c _, rfl⟩
    · exact attached.plain plain hl
  | release l next ih =>
    have released := sound.step (f := (·.release l)) (.release (plain honest.1)) rfl rfl rfl
    exact released.trans (ih honest.2 ran released.sound (released.plain plain))
  | spawn body next ih =>
    obtain ⟨s₁, done, ran⟩ := Option.bind_eq_some_iff.1 ran
    have spawned := h.spawn done sound
    exact spawned.trans (ih _ (honest _) ran spawned.sound (spawned.plain plain))
  | dispose e next ih =>
    have disposed := sound.dispose e
    exact disposed.trans (ih honest ran disposed.sound (disposed.plain plain))
  | drop e next ih =>
    have dropped := sound.drop e
    exact dropped.trans (ih honest ran dropped.sound (dropped.plain plain))
  | examine e next ih =>
    obtain ⟨x, -, ran⟩ := Option.bind_eq_some_iff.1 ran
    exact ih _ (honest _) ran sound plain
  | ask next ih => exact ih _ (honest _) ran sound fun hl => hl.elim sound.kept plain
  | change f next ih =>
    have changed := sound.change (w := f s.graph.world) fun hk =>
      (honest.1 _ _ hk).elim sound.kept plain
    exact changed.trans (ih honest.2 ran changed.sound (changed.plain plain))
  | report n next ih =>
    have reported := sound.aside (f := (·.record (.noted n))) rfl rfl rfl rfl rfl
    exact reported.trans (ih honest ran reported.sound (reported.plain plain))
  | within span next ih =>
    have within := sound.aside (f := (·.withSpan span)) rfl rfl rfl rfl rfl
    exact within.trans (ih honest ran within.sound (within.plain plain))

theorem Faithful.alone (h : Faithful keeps perform) {same : V → V → Bool} {p : Program B V W α}
    {r : α × Traced B V W} (honest : p.HonestAlone keeps) (ran : p.trace same perform s = some r)
    (sound : s.Sound keeps) : s.Completes keeps r.2 :=
  h.program honest ran sound False.elim

/-- An effect that is run is good afterwards, be it that it is disposed or running already. -/
theorem Faithful.rerun (h : Faithful keeps perform) (honest : m.Honest keeps) {e : EffectId}
    (ran : rerunTraced m perform e s = some s') (sound : s.Sound keeps) :
    s.Completes keeps s' ∧ s'.Good e := by
  obtain ⟨x, hx, ran⟩ := Option.bind_eq_some_iff.1 ran
  split at ran
  · rename_i hidle
    obtain rfl := Option.some.inj ran
    refine ⟨sound.refl, fun y hy => ?_⟩
    obtain rfl := Option.some.inj (hx.symm.trans hy)
    rcases Bool.or_eq_true_iff.1 hidle with hd | hr
    · exact .inl hd
    · exact .inr (.inl hr)
  · obtain ⟨⟨u, s₂⟩, done, rfl⟩ := Option.map_eq_some_iff.1 ran
    obtain ⟨begun, moved⟩ := sound.start hx
    have body := h.alone (honest.body x.body) done begun
    obtain ⟨x₂, hx₂⟩ := (moved.trans (body.except e)).exists_effect hx
    -- The body has closed what it has opened, so that the innermost frame is that of this run.
    obtain ⟨r, frames, hf, hrest⟩ : ∃ r frames, s₂.trail.frames = some r :: frames ∧
        frames.map Option.isSome = s.trail.frames.map Option.isSome := by
      have shape : s₂.trail.frames.map Option.isSome = true :: s.trail.frames.map Option.isSome :=
        body.shape
      obtain ⟨top, frames, hf, htop, hrest⟩ := List.map_eq_cons_iff.1 shape
      obtain ⟨r, rfl⟩ := Option.isSome_iff_exists.1 htop
      exact ⟨r, frames, hf, hrest⟩
    obtain ⟨ended, settled, resting, good⟩ := body.sound.finish hx₂ hf
    have through := (moved.trans (body.except e)).trans settled
    refine ⟨⟨through.close (fun _ => resting) good, ended, ?_⟩, good⟩
    simp only [Traced.finish, Trail.finish, Trail.leave, hf, List.tail_cons]
    exact hrest

/-- A listener that is called in time makes its effect good: an effect that has been given up and
rests is disposed, and a listener of an older run is not in time. -/
theorem Faithful.call (h : Faithful keeps perform) (honest : m.Honest keeps) {l : ListenerId}
    {v : V} {y : Listener B} (hy : s.graph.listeners[l]? = some y)
    (ran : reactTraced m perform v (s.step (·.record (.called l v))) y.reaction = some s')
    (sound : s.Sound keeps) : s.Completes keeps s' ∧ Serves (.call l v) s s' := by
  have called := sound.aside (f := (·.record (.called l v))) rfl rfl rfl rfl rfl
  have target {e epoch : Nat} (ht : s.graph.Targets l e epoch) : y.reaction = .rerun e epoch := by
    obtain ⟨z, hz, hr⟩ := ht
    rwa [← Option.some.inj (hy.symm.trans hz)] at hr
  cases hr : y.reaction with
  | call body =>
    rw [hr] at ran target
    obtain ⟨r, done, rfl⟩ := Option.map_eq_some_iff.1 ran
    exact ⟨called.trans (h.alone (honest.reaction body v) done called.sound),
      fun _ ht => nomatch target ht⟩
  | rerun e epoch =>
    rw [hr] at ran target
    obtain ⟨x, hx, ran⟩ := Option.bind_eq_some_iff.1 ran
    have serves (good : s'.Good e) : Serves (.call l v) s s' := by
      intro d z _ ht
      cases target ht
      exact good
    split at ran
    · rename_i hgone
      obtain rfl := Option.some.inj ran
      refine ⟨called, serves fun z hz => .inl ?_⟩
      obtain rfl := Option.some.inj (hx.symm.trans hz)
      cases hd : x.disposed with
      | true => rfl
      | false => simp [sound.tended.owned hx hd] at hgone
    · split at ran
      · rename_i hne
        obtain rfl := Option.some.inj ran
        have stale :=
          called.sound.aside (f := (·.record (.stale e epoch x.epoch))) rfl rfl rfl rfl rfl
        refine ⟨called.trans stale, fun {d z} hz ht => ?_⟩
        cases target ht
        exact absurd (congrArg Effect.epoch (Option.some.inj (hx.symm.trans hz))) hne
      · obtain ⟨completed, good⟩ := h.rerun honest ran called.sound
        exact ⟨called.trans completed, serves good⟩

theorem Faithful.untracked (h : Faithful keeps perform) (honest : m.Honest keeps)
    {same : V → V → Bool} {body : B} {r : Unit × Traced B V W}
    (ran : (m.body body).trace same perform s.suspend = some r) (sound : s.Sound keeps) :
    s.Completes keeps r.2.restore := by
  have into : s.graph.Spares none s.suspend.graph := .of_eq rfl rfl rfl
  have outOf : r.2.graph.Spares none r.2.restore.graph := .of_eq rfl rfl rfl
  have suspended : s.suspend.Sound keeps :=
    ⟨.cons .untracked (sound.frames.imp fun _ _ hm => hm.imp into.shows), sound.tended.spares into,
      fun hk => (sound.kept hk).lasting into.lasting⟩
  have inside := h.alone (honest.body body) ran suspended
  have restored : r.2.restore.Sound keeps := by
    refine ⟨?_, inside.sound.tended.spares outOf,
      fun hk => (inside.sound.kept hk).lasting outOf.lasting⟩
    have frames := List.forall₂_drop 1 inside.sound.frames
    rw [List.drop_one, List.drop_one] at frames
    exact frames.imp fun _ _ hm => hm.imp outOf.shows
  refine ⟨?_, restored, ?_⟩
  · have before : s.Moves none s.suspend := .of_spares into (Nat.le_refl _) fun _ => rfl
    have after : r.2.Moves none r.2.restore := .of_spares outOf (Nat.le_refl _) fun _ => rfl
    exact (before.trans inside.toMoves).trans after
  · have shape : r.2.trail.frames.map Option.isSome = false :: s.trail.frames.map Option.isSome :=
      inside.shape
    simp only [Traced.restore, Trail.leave, List.map_tail, shape, List.tail_cons]

/-- Tasks of honest systems are done faithfully, however deep bodies nest. -/
theorem faithful_performTraced (honest : m.Honest keeps) (depth : Nat) :
    Faithful keeps (performTraced m depth) := by
  induction depth with
  | zero =>
    intro task s s' ran
    cases ran
  | succ depth ih =>
    intro task s s' ran sound
    cases task with
    | call l v =>
      obtain ⟨y, hy, ran⟩ := Option.bind_eq_some_iff.1 ran
      exact ih.call honest hy ran sound
    | effect e => exact ih.rerun honest ran sound
    | untracked body =>
      obtain ⟨r, done, rfl⟩ := Option.map_eq_some_iff.1 ran
      exact ⟨ih.untracked honest done sound, trivial⟩

theorem Sound.calls (honest : m.Honest keeps) {calls : List (Nat × Program B V W Unit)}
    (alone : ∀ call ∈ calls, call.2.HonestAlone keeps) (ran : traceAll m calls s = some s')
    (sound : s.Sound keeps) :
    s.Completes keeps s' := by
  induction calls generalizing s with
  | nil =>
    obtain rfl := Option.some.inj ran
    exact sound.refl
  | cons call calls ih =>
    obtain ⟨hp, others⟩ := List.forall_mem_cons.1 alone
    obtain ⟨r, done, ran⟩ := Option.bind_eq_some_iff.1 ran
    have first := Faithful.alone (faithful_performTraced honest call.1) hp done sound
    exact first.trans (ih others ran first.sound)

end Traced

structure Graph.Bare (keeps : W → ListenerId → Prop) (g : Graph B V W) : Prop where
  effects : g.effects = []
  scopes : g.scopes = []
  kept : ∀ {l : ListenerId}, keeps g.world l → g.Plain l

theorem Graph.Bare.sound {g : Graph B V W} (h : g.Bare keeps) : Traced.Sound keeps ⟨g, {}⟩ where
  frames := by
    rw [h.scopes]
    exact .nil
  tended := by constructor <;> simp [Graph.Owns, h.effects]
  kept := h.kept

theorem Script.bare_begin (budget : Nat) (cells : Entries Argument) :
    (Script.begin budget cells).Bare Script.Keeps := by
  let Bare (g : Graph Script.Block Argument Script.State) : Prop := g.effects = [] ∧ g.scopes = [] ∧
    g.world.listeners = []
  have bare : Bare (Script.begin budget cells) :=
    List.foldlRecOn (motive := Bare) cells _ ⟨rfl, rfl, rfl⟩ fun _ bare _ _ => bare
  exact ⟨bare.1, bare.2.1, by simp [Script.Keeps, bare.2.2]⟩

/-- Whenever a call from outside has come to an end, each effect that has not been disposed is up to
date: unless a cell was given another value during its last run, all cells that this run has read
have the values that it got. -/
theorem latest_reads_current (honest : m.Honest keeps) {g₀ g : Graph B V W} (bare : g₀.Bare keeps)
    {calls : List (Nat × Program B V W Unit)} (alone : ∀ call ∈ calls, call.2.HonestAlone keeps)
    (ran : runAll m calls g₀ = some g) : ∃ t, traceAll m calls ⟨g₀, {}⟩ = some ⟨g, t⟩ ∧
      ∀ {e : EffectId} {x : Effect B}, g.effects[e]? = some x → x.disposed = false →
        ∃ r, t.latest e = some r ∧ (r.disturbed = false → ∀ p ∈ r.reads, g.Shows p) := by
  have erased := traceAll_erase m calls ⟨g₀, {}⟩
  rw [ran, Option.map_eq_some_iff] at erased
  obtain ⟨⟨_, t⟩, traced, rfl⟩ := erased
  have completed := bare.sound.calls honest alone traced
  refine ⟨t, traced, fun {e x} hx hd => ?_⟩
  have none_yet (x : Effect B) (hx : g₀.effects[e]? = some x) : False := by
    simp [bare.effects] at hx
  have resting := completed.resting (e := e) (by simp) fun x hx => (none_yet x hx).elim
  rcases completed.good (by simp) (fun x hx => (none_yet x hx).elim) x hx
    with disposed | running | ⟨r, hr, fresh⟩
  · rw [hd] at disposed
    cases disposed
  · rw [resting x hx] at running
    cases running
  · exact ⟨r, hr, fun undisturbed p hp => (fresh undisturbed p hp).1⟩

namespace Script

/-- A listener answers the change of a cell with another change, before the effect that reads the
cell is called. -/
def answered : List (Nat × Code Unit) :=
  [.subscribe "answer" "x" [.branch "x" (.text "one") [.set "x" (.text "two")] []],
    .spawn "effect" [.read .get "x"], .set "x" (.text "one")].map fun s => (8, statement s)

theorem latest_reads_current_answered :
    ∃ g t, runAll meaning answered (begin 20 [("x", .text "")]) = some g ∧
    traceAll meaning answered ⟨begin 20 [("x", .text "")], {}⟩ = some ⟨g, t⟩ ∧
    t.latest 0 = some ⟨[(0, .text "two")], false⟩ ∧ g.Shows (0, .text "two") := by
  have alone : ∀ call ∈ answered, call.2.HonestAlone Keeps := by
    intro call hc
    obtain ⟨s, -, rfl⟩ := List.mem_map.1 hc
    exact honest_statement s
  have read : (traceAll meaning answered ⟨begin 20 [("x", .text "")], {}⟩).map
      (fun s => (s.trail.latest 0, s.graph.effects[0]?.map Effect.disposed)) =
        some (some ⟨[(0, .text "two")], false⟩, some false) := by rfl
  obtain ⟨⟨g, t⟩, traced, latest⟩ := Option.map_eq_some_iff.1 read
  obtain ⟨latest, undisposed⟩ := Prod.mk.inj latest
  obtain ⟨x, hx, hd⟩ := Option.map_eq_some_iff.1 undisposed
  have ran : runAll meaning answered (begin 20 [("x", .text "")]) = some g := by
    rw [← traceAll_erase meaning answered ⟨begin 20 [("x", .text "")], {}⟩, traced]
    rfl
  obtain ⟨t', traced', current⟩ :=
    latest_reads_current honest_meaning (bare_begin 20 [("x", .text "")]) alone ran
  obtain rfl : t' = t := congrArg Traced.trail (Option.some.inj (traced'.symm.trans traced))
  obtain ⟨r, hr, shows⟩ := current hx hd
  obtain rfl := Option.some.inj (latest.symm.trans hr)
  exact ⟨g, t', ran, traced, latest, shows rfl _ (List.mem_singleton_self _)⟩

end Script
end StoryPreview.Reactive
