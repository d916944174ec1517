import StoryPreview.Proofs.Reactive.Honesty
import StoryPreview.Proofs.Reactive.Sparing
import StoryPreview.Proofs.Reactive.Tracing
/-!
Fresh effects. An effect is fresh if its cells have the values that its last run read, and if it is
hooked to them. The steps of a run keep effects fresh, with the exception of those that are about to
run again: a change of a cell captures the listeners of the effects that have read it, and the end
of a run makes its effect fresh.
-/
namespace StoryPreview.Reactive
variable {B V W α : Type} {keeps : W → ListenerId → Prop}

namespace Graph
variable {out : Option EffectId} {g g' : Graph B V W} {e : EffectId} {x : Effect B}

def Targets (g : Graph B V W) (l : ListenerId) (e : EffectId) (epoch : Nat) : Prop :=
  ∃ y, g.listeners[l]? = some y ∧ y.reaction = .rerun e epoch

def Resting (g : Graph B V W) (e : EffectId) : Prop :=
  ∀ x, g.effects[e]? = some x → x.running = false

structure Tended (g : Graph B V W) : Prop where
  owns : g.Owns
  owned : ∀ {e : EffectId} {x : Effect B}, g.effects[e]? = some x → x.disposed = false →
    x.owned = true

theorem Plain.lasting (lasting : g.Lasting g') {l : ListenerId} (h : g.Plain l) : g'.Plain l := by
  obtain ⟨y, b, hy, hb⟩ := h
  obtain ⟨y', hy', hr⟩ := lasting hy
  exact ⟨y', b, hy', hr.trans hb⟩

theorem Targets.lasting (lasting : g.Lasting g') {l : ListenerId} {epoch : Nat}
    (h : g.Targets l e epoch) : g'.Targets l e epoch := by
  obtain ⟨y, hy, hr⟩ := h
  obtain ⟨y', hy', hr'⟩ := lasting hy
  exact ⟨y', hy', hr'.trans hr⟩

theorem Tended.target (h : g.Tended) (hx : g.effects[e]? = some x) {l : ListenerId}
    (hl : l ∈ x.subscriptions) : ∃ epoch, g.Targets l e epoch := by
  obtain ⟨y, epoch, hy, hr⟩ := h.owns hx hl
  exact ⟨epoch, y, hy, hr⟩

theorem Tended.lasting (h : g.Tended) (lasting : g.Lasting g')
    (effects : ∀ {d : EffectId} {z : Effect B}, g'.effects[d]? = some z → g.effects[d]? = some z ∨
      (∀ l ∈ z.subscriptions, ∃ epoch, g'.Targets l d epoch) ∧
      (z.disposed = false → z.owned = true)) : g'.Tended where
  owns := by
    intro d z l hz hl
    have target : ∃ epoch, g'.Targets l d epoch := by
      rcases effects hz with hz | ⟨targets, -⟩
      · obtain ⟨epoch, ht⟩ := h.target hz hl
        exact ⟨epoch, ht.lasting lasting⟩
      · exact targets l hl
    obtain ⟨epoch, y, hy, hr⟩ := target
    exact ⟨y, epoch, hy, hr⟩
  owned := by
    intro d z hz hd
    rcases effects hz with hz | ⟨-, owned⟩
    · exact h.owned hz hd
    · exact owned hd

theorem Tended.spares (h : g.Tended) (sp : g.Spares none g') : g'.Tended :=
  h.lasting sp.lasting fun hz => .inl ((sp.effect (by simp)).symm.trans hz)

theorem Tended.set (h : g.Tended) {z : Effect B} (lasting : g.Lasting g')
    (effects : g'.effects = g.effects.set e z)
    (targets : ∀ l ∈ z.subscriptions, ∃ epoch, g'.Targets l e epoch)
    (owned : z.disposed = false → z.owned = true) : g'.Tended := by
  refine h.lasting lasting fun {d w} hw => ?_
  rw [effects, List.getElem?_set] at hw
  split at hw
  · rename_i hd
    subst hd
    split at hw
    · obtain rfl := Option.some.inj hw
      exact .inr ⟨targets, owned⟩
    · cases hw
  · exact .inl hw

theorem Tended.addEffect (h : g.Tended) (body : B) : (g.addEffect body).2.Tended := by
  refine h.lasting (Lasting.of_eq rfl) fun {d z} hz => ?_
  by_cases hd : d < g.effects.length
  · exact .inl (by rwa [Graph.addEffect, List.getElem?_append_left hd] at hz)
  · obtain rfl : z = { body := body } := by
      simp only [Graph.addEffect, List.getElem?_append_right (Nat.le_of_not_lt hd)] at hz
      exact List.mem_singleton.1 (List.mem_of_getElem? hz)
    exact .inr ⟨by simp, fun _ => rfl⟩

theorem Tended.dispose (h : g.Tended) (e : EffectId) : (g.dispose e).Tended := by
  rcases dispose_cases g e with ⟨he, -⟩ | ⟨x, hx, -, he⟩
  · rwa [he]
  · refine h.set (e := e) (z := gone x) (Steady.dispose g e).reaction (by rw [he])
      (by simp [gone]) (by simp [gone])

theorem Tended.drop (h : g.Tended) (e : EffectId) : (g.drop e).Tended := by
  have lasting : (g.dispose e).Lasting (g.drop e) := Lasting.of_eq rfl
  refine (h.dispose e).lasting lasting fun {d z} hz => ?_
  by_cases hd : e = d
  · subst hd
    have disposed := drop_self hz
    rw [drop_effect, Option.map_eq_some_iff] at hz
    obtain ⟨x, hx, rfl⟩ := hz
    refine .inr ⟨fun l hl => ?_, fun hf => ?_⟩
    · obtain ⟨epoch, y, hy, hr⟩ := (h.dispose e).target hx (by simpa using hl)
      exact ⟨epoch, y, hy, hr⟩
    · rw [disposed] at hf
      cases hf
  · rw [drop_effect] at hz
    simp only [hd, if_false, Option.map_id'] at hz
    exact .inl hz

theorem resting_dispose (e : EffectId) (h : g.Resting e) : (g.dispose e).Resting e := by
  intro z hz
  rcases dispose_cases g e with ⟨he, -⟩ | ⟨x, hx, -, he⟩
  · rw [he] at hz
    exact h z hz
  · rw [he, List.getElem?_set_self (List.getElem?_eq_some_iff.1 hx).1] at hz
    obtain rfl := Option.some.inj hz
    exact h x hx

theorem resting_drop (e : EffectId) (h : g.Resting e) : (g.drop e).Resting e := by
  intro z hz
  rw [drop_effect, Option.map_eq_some_iff] at hz
  obtain ⟨x, hx, rfl⟩ := hz
  simpa using resting_dispose e h x hx

structure Rests (g g' : Graph B V W) (e : EffectId) (z : Effect B) : Prop where
  effects : g'.effects = g.effects.set e z
  scopes : g'.scopes = g.scopes.tail
  world : g'.world = g.world
  resting : z.running = false
  targets : ∀ l ∈ z.subscriptions, ∃ epoch, g'.Targets l e epoch
  owned : z.disposed = false → z.owned = true
  hooked : z.disposed = false → ∀ c ∈ g.reads, c < g.cells.length → g'.Hooked e z.epoch c

theorem Tended.rests (h : g.Tended) (hx : g.effects[e]? = some x) :
    ∃ z, g.Rests (g.finish e) e z := by
  cases hd : x.disposed with
  | true =>
    rw [finish_gone hx hd]
    refine ⟨{ x with runs := x.runs + 1, running := false }, rfl, rfl, rfl, rfl, fun l hl => ?_,
      by simp [hd], by simp [hd]⟩
    obtain ⟨epoch, y, hy, hr⟩ := h.target hx hl
    exact ⟨epoch, y, hy, hr⟩
  | false =>
    rw [finish_eq hx hd]
    refine ⟨ended x (g.pop.attach e x.epoch g.reads).1, rfl, attach_scopes e x.epoch g.reads g.pop,
      attach_world e x.epoch g.reads g.pop, rfl, fun l hl => ?_, fun _ => ?_, fun _ c hc hlt => ?_⟩
    · obtain ⟨y, hy, hr⟩ := attach_reaction hl
      exact ⟨x.epoch, y, hy, hr⟩
    · exact (h.owned hx hd :)
    · have hooked : (g.pop.attach e x.epoch g.reads).2.Hooked e x.epoch c := attach_hooked hc hlt
      exact hooked.congr rfl rfl

end Graph

/-- A frame of the trail and the scope that it stands for: what has been read is tracked, and, as
long as no cell has been given another value, the cells have what was read. -/
inductive Matches (g : Graph B V W) : Option (Run V) → Scope → Prop
  | tracked {r : Run V} {cells : List CellId} (known : ∀ p ∈ r.reads, p.1 ∈ cells)
    (shows : r.disturbed = false → ∀ p ∈ r.reads, g.Shows p) : Matches g (some r) (.tracked cells)
  | untracked : Matches g none .untracked

theorem Matches.imp {g g' : Graph B V W} (h : ∀ {p : CellId × V}, g.Shows p → g'.Shows p)
    {frame : Option (Run V)} {scope : Scope} (hm : Matches g frame scope) :
    Matches g' frame scope := by
  cases hm with
  | tracked known shows => exact .tracked known fun hd p hp => h (shows hd p hp)
  | untracked => exact .untracked

/-- After a change the runs that are under way have no claim to what they have read. -/
theorem Matches.disturb {g g' : Graph B V W} {frame : Option (Run V)} {scope : Scope}
    (hm : Matches g frame scope) :
    Matches g' (frame.map fun r => { r with disturbed := true }) scope := by
  cases hm with
  | tracked known shows => exact .tracked known (by simp)
  | untracked => exact .untracked

theorem Trail.shape_disturb (t : Trail V) :
    t.disturb.frames.map Option.isSome = t.frames.map Option.isSome := by
  simp only [Trail.disturb, List.map_map]
  refine List.map_congr_left fun frame _ => ?_
  cases frame <;> rfl

namespace Traced
variable {s s' s'' : Traced B V W} {e : EffectId} {x : Effect B} {out : Option EffectId}

/-- The last run of an effect, unless a cell was given another value during it, has read what the
cells have, and the effect is hooked to them. -/
def Fresh (s : Traced B V W) (e : EffectId) (epoch : Nat) : Prop :=
  ∃ r, s.trail.latest e = some r ∧
    (r.disturbed = false → ∀ p ∈ r.reads, s.graph.Shows p ∧ s.graph.Hooked e epoch p.1)

def Good (s : Traced B V W) (e : EffectId) : Prop :=
  ∀ x, s.graph.effects[e]? = some x → x.disposed = true ∨ x.running = true ∨ s.Fresh e x.epoch

structure Sound (keeps : W → ListenerId → Prop) (s : Traced B V W) : Prop where
  frames : List.Forall₂ (Matches s.graph) s.trail.frames s.graph.scopes
  tended : s.graph.Tended
  kept : ∀ {l : ListenerId}, keeps s.graph.world l → s.graph.Plain l

/-- What steps do to all effects but perhaps one: those that rest will rest, those that are good
stay good, and those that have been started are good in the end. -/
structure Moves (out : Option EffectId) (s s' : Traced B V W) : Prop where
  lasting : s.graph.Lasting s'.graph
  present : s.graph.effects.length ≤ s'.graph.effects.length
  resting : ∀ {e : EffectId}, out ≠ some e → s.graph.Resting e → s'.graph.Resting e
  good : ∀ {e : EffectId}, out ≠ some e → s.Good e → s'.Good e
  started : ∀ {e : EffectId} {x x' : Effect B}, out ≠ some e → s.graph.effects[e]? = some x →
    s'.graph.effects[e]? = some x' → x'.epoch ≠ x.epoch → s'.Good e

theorem Good.spares (h : s.Good e) (sp : s.graph.Spares out s'.graph) (ho : out ≠ some e)
    (latest : s'.trail.latest e = s.trail.latest e) : s'.Good e := by
  intro x hx
  rw [sp.effect ho] at hx
  refine (h x hx).imp_right (Or.imp_right ?_)
  rintro ⟨r, hr, fresh⟩
  exact ⟨r, latest.trans hr, fun hd p hp => ⟨sp.shows (fresh hd p hp).1,
    sp.hooked ho (fresh hd p hp).2⟩⟩

namespace Moves

theorem exists_effect (h : s.Moves out s') (hx : s.graph.effects[e]? = some x) :
    ∃ x', s'.graph.effects[e]? = some x' :=
  ⟨_, List.getElem?_eq_getElem (Nat.lt_of_lt_of_le (List.getElem?_eq_some_iff.1 hx).1 h.present)⟩

theorem trans (h : s.Moves out s') (h' : s'.Moves out s'') : s.Moves out s'' where
  lasting := Graph.Lasting.trans h.lasting h'.lasting
  present := Nat.le_trans h.present h'.present
  resting := fun ho hr => h'.resting ho (h.resting ho hr)
  good := fun ho hg => h'.good ho (h.good ho hg)
  started := by
    intro e x x'' ho hx hx'' hne
    obtain ⟨x', hx'⟩ := h.exists_effect hx
    by_cases he : x'.epoch = x.epoch
    · exact h'.started ho hx' hx'' (he ▸ hne)
    · exact h'.good ho (h.started ho hx hx' he)

theorem except (h : s.Moves none s') (e : EffectId) : s.Moves (some e) s' :=
  ⟨h.lasting, h.present, fun _ => h.resting (by simp), fun _ => h.good (by simp),
    fun _ => h.started (by simp)⟩

theorem close (h : s.Moves (some e) s') (resting : s.graph.Resting e → s'.graph.Resting e)
    (good : s'.Good e) : s.Moves none s' where
  lasting := h.lasting
  present := h.present
  resting := by
    intro d _ hr
    by_cases hd : e = d
    · subst hd
      exact resting hr
    · exact h.resting (by simpa using hd) hr
  good := by
    intro d _ hg
    by_cases hd : e = d
    · subst hd
      exact good
    · exact h.good (by simpa using hd) hg
  started := by
    intro d x x' _ hx hx' hne
    by_cases hd : e = d
    · subst hd
      exact good
    · exact h.started (by simpa using hd) hx hx' hne

theorem of_spares (sp : s.graph.Spares out s'.graph)
    (present : s.graph.effects.length ≤ s'.graph.effects.length)
    (latest : ∀ {e : EffectId}, out ≠ some e → s'.trail.latest e = s.trail.latest e) :
    s.Moves out s' where
  lasting := sp.lasting
  present := present
  resting := by
    intro e ho hr x hx
    rw [sp.effect ho] at hx
    exact hr x hx
  good := fun ho hg => hg.spares sp ho (latest ho)
  started := by
    intro e x x' ho hx hx' hne
    rw [sp.effect ho, hx] at hx'
    rw [Option.some.inj hx'] at hne
    exact absurd rfl hne

end Moves

structure Completes (keeps : W → ListenerId → Prop) (s s' : Traced B V W) :
    Prop extends s.Moves none s' where
  sound : Sound keeps s'
  shape : s'.trail.frames.map Option.isSome = s.trail.frames.map Option.isSome

theorem Completes.trans (h : s.Completes keeps s') (h' : s'.Completes keeps s'') :
    s.Completes keeps s'' :=
  ⟨h.toMoves.trans h'.toMoves, h'.sound, h'.shape.trans h.shape⟩

theorem Completes.plain (h : s.Completes keeps s') {own : ListenerId → Prop}
    (plain : ∀ {l : ListenerId}, own l → s.graph.Plain l) {l : ListenerId} (hl : own l) :
    s'.graph.Plain l :=
  (plain hl).lasting h.lasting

namespace Sound

/-- Steps that keep the values of cells and the scopes. -/
theorem after (h : s.Sound keeps) (sp : s.graph.Spares out s'.graph)
    (frames : s'.trail.frames = s.trail.frames) (scopes : s'.graph.scopes = s.graph.scopes)
    (tended : s'.graph.Tended) (world : s'.graph.world = s.graph.world) : s'.Sound keeps where
  frames := by
    rw [frames, scopes]
    exact h.frames.imp fun _ _ hm => hm.imp sp.shows
  tended := tended
  kept := fun hk => (h.kept (world ▸ hk)).lasting sp.lasting

theorem refl (h : s.Sound keeps) : s.Completes keeps s :=
  ⟨.of_spares (.refl _) (Nat.le_refl _) fun _ => rfl, h, rfl⟩

/-- A step that spares all effects and that the trail says nothing about. -/
theorem step (h : s.Sound keeps) {f : Graph B V W → Graph B V W}
    (sp : s.graph.Spares none (f s.graph)) (scopes : (f s.graph).scopes = s.graph.scopes)
    (world : (f s.graph).world = s.graph.world) (effects : (f s.graph).effects = s.graph.effects) :
    s.Completes keeps (s.step f) :=
  ⟨.of_spares sp (Nat.le_of_eq (congrArg _ effects.symm)) fun _ => rfl,
    h.after sp rfl scopes (h.tended.spares sp) world, rfl⟩

theorem aside (h : s.Sound keeps) {f : Graph B V W → Graph B V W}
    (cells : (f s.graph).cells = s.graph.cells)
    (listeners : (f s.graph).listeners = s.graph.listeners)
    (effects : (f s.graph).effects = s.graph.effects) (scopes : (f s.graph).scopes = s.graph.scopes)
    (world : (f s.graph).world = s.graph.world) : s.Completes keeps (s.step f) :=
  h.step (.of_eq cells listeners effects) scopes world effects

/-- The world changes; the listeners that it keeps from now on are no effect's. -/
theorem change (h : s.Sound keeps) {w : W}
    (kept : ∀ {l : ListenerId}, keeps w l → s.graph.Plain l) :
    s.Completes keeps (s.step (·.withWorld w)) := by
  have sp : s.graph.Spares none (s.graph.withWorld w) := .of_eq rfl rfl rfl
  exact ⟨.of_spares sp (Nat.le_refl _) fun _ => rfl,
    ⟨h.frames.imp fun _ _ hm => hm.imp sp.shows, h.tended.spares sp, kept⟩, rfl⟩

theorem disposed (h : s.Sound keeps) {f : Graph B V W → Graph B V W}
    (sp : s.graph.Spares (some e) (f s.graph)) (scopes : (f s.graph).scopes = s.graph.scopes)
    (world : (f s.graph).world = s.graph.world)
    (length : (f s.graph).effects.length = s.graph.effects.length) (tended : (f s.graph).Tended)
    (gone : ∀ {x : Effect B}, (f s.graph).effects[e]? = some x → x.disposed = true)
    (resting : s.graph.Resting e → (f s.graph).Resting e) : s.Completes keeps (s.step f) := by
  have moved : s.Moves (some e) (s.step f) := .of_spares sp (Nat.le_of_eq length.symm) fun _ => rfl
  exact ⟨moved.close resting fun x hx => .inl (gone hx), h.after sp rfl scopes tended world, rfl⟩

theorem dispose (h : s.Sound keeps) (e : EffectId) : s.Completes keeps (s.step (·.dispose e)) :=
  h.disposed (e := e) (.dispose h.tended.owns e) Graph.dispose_scopes Graph.dispose_world
    Graph.dispose_effects_length (h.tended.dispose e) Graph.dispose_self (Graph.resting_dispose e)

theorem drop (h : s.Sound keeps) (e : EffectId) : s.Completes keeps (s.step (·.drop e)) :=
  h.disposed (e := e) (.drop h.tended.owns e) Graph.drop_scopes Graph.drop_world
    Graph.drop_effects_length (h.tended.drop e) Graph.drop_self (Graph.resting_drop e)

/-- What a read gives is what the cell has, and the cell is tracked if the read is. -/
theorem read (h : s.Sound keeps) {c : CellId} {z : Cell V} (hz : s.graph.cells[c]? = some z) :
    s.Completes keeps ⟨s.graph.track c, s.trail.read c z.value⟩ := by
  have sp : s.graph.Spares none (s.graph.track c) :=
    .of_eq (s.graph.track_cells c) (s.graph.track_listeners c) (s.graph.track_effects c)
  have shown : (s.graph.track c).Shows (c, z.value) := by
    rw [Graph.Shows, Graph.track_cells, hz]
    rfl
  have latest : (s.trail.read c z.value).latest = s.trail.latest := by
    unfold Trail.read
    split <;> rfl
  have frames : List.Forall₂ (Matches (s.graph.track c)) (s.trail.read c z.value).frames
      (s.graph.track c).scopes ∧
      (s.trail.read c z.value).frames.map Option.isSome = s.trail.frames.map Option.isSome := by
    -- Only the innermost frame may change, together with its scope.
    have old := h.frames.imp fun _ _ hm => hm.imp sp.shows
    generalize hf : s.trail.frames = frames at old
    generalize hs : s.graph.scopes = scopes at old
    cases old with
    | nil => simp [Trail.read, Graph.track, hf, hs]
    | cons top rest =>
      cases top with
      | untracked =>
        have inner := List.Forall₂.cons (Matches.untracked (V := V) (g := s.graph.track c)) rest
        simpa [Trail.read, Graph.track, hf, hs] using inner
      | tracked known shows =>
        obtain ⟨cells, hcells, hc, hold, -⟩ := s.graph.track_tracked c hs
        rw [hcells]
        simp only [Trail.read, hf, List.map_cons, Option.isSome_some, and_true]
        refine .cons (.tracked ?_ ?_) rest
        · exact List.forall_mem_cons.2 ⟨hc, fun p hp => hold _ (known p hp)⟩
        · exact fun hd => List.forall_mem_cons.2 ⟨shown, shows hd⟩
  refine ⟨.of_spares sp (by simp) fun _ => congrFun latest _, ⟨frames.1, h.tended.spares sp, ?_⟩,
    frames.2⟩
  exact fun hk => (h.kept (s.graph.track_world c ▸ hk)).lasting sp.lasting

end Sound

/-! ### A change of a cell -/

/-- A change captures the listeners of those effects that were good and are not any more. -/
structure Changes (keeps : W → ListenerId → Prop) (ls : List ListenerId) (s s' : Traced B V W) :
    Prop where
  sound : s'.Sound keeps
  shape : s'.trail.frames.map Option.isSome = s.trail.frames.map Option.isSome
  effects : s'.graph.effects = s.graph.effects
  lasting : s.graph.Lasting s'.graph
  captured : ∀ {e : EffectId}, s.Good e → s'.Good e ∨
    ∃ x, s'.graph.effects[e]? = some x ∧ ∃ l ∈ ls, s'.graph.Targets l e x.epoch

theorem Sound.assign (h : s.Sound keeps) {same : V → V → Bool} {c : CellId} {v : V}
    {ls : List ListenerId} (hs' : s.assign same c v = some (ls, s')) : s.Changes keeps ls s' := by
  obtain ⟨z, hz, hs'⟩ := Option.bind_eq_some_iff.1 hs'
  obtain ⟨r, hr, heq⟩ := Option.map_eq_some_iff.1 hs'
  obtain ⟨rfl, rfl⟩ := Prod.mk.inj heq
  cases hsame : same z.value v with
  | true =>
    obtain rfl := Option.some.inj ((Graph.assign_same hz hsame).symm.trans hr)
    simp only [if_true]
    exact ⟨h, rfl, rfl, Graph.Lasting.of_eq rfl, fun hg => .inl hg⟩
  | false =>
    obtain ⟨g', hg', alike⟩ := Graph.assign_changed hz hsame
    obtain rfl := Option.some.inj (hg'.symm.trans hr)
    simp only [Bool.false_eq_true, if_false]
    have lasting : s.graph.Lasting g' := alike.steady.reaction
    have hlt := (List.getElem?_eq_some_iff.1 hz).1
    refine ⟨⟨?_, h.tended.lasting lasting fun hx => .inl (by rwa [alike.effects] at hx), ?_⟩,
      Trail.shape_disturb _, alike.effects, lasting, fun {e} hg => ?_⟩
    · rw [alike.scopes]
      exact List.forall₂_map_left_iff.2 (h.frames.imp fun _ _ hm => hm.disturb)
    · intro l hk
      rw [alike.world] at hk
      exact (h.kept hk).lasting lasting
    · -- Either the effect is hooked to the cell, and captured, or its reads are of other cells.
      by_cases read : ∃ x, s.graph.effects[e]? = some x ∧ s.graph.Hooked e x.epoch c
      · obtain ⟨x, hx, hooked⟩ := read
        obtain ⟨l, hl, target⟩ := hooked.captured
        exact .inr ⟨x, by rwa [alike.effects], l, hl, Graph.Targets.lasting lasting target⟩
      · refine .inl fun x hx => ?_
        rw [alike.effects] at hx
        refine (hg x hx).imp_right (Or.imp_right ?_)
        rintro ⟨r, hr, fresh⟩
        refine ⟨r, hr, fun hd p hp => ?_⟩
        obtain ⟨shown, hooked⟩ := fresh hd p hp
        have hpc : c ≠ p.1 := fun hpc => read ⟨x, hx, hpc ▸ hooked⟩
        refine ⟨?_, alike.hooked (hooked.withCell hz (by simp [Graph.liveSlots, hz]))⟩
        rw [Graph.Shows, alike.cells, Graph.withCell_cell hlt, if_neg hpc]
        exact shown

/-! ### A run of an effect -/

theorem Sound.start (h : s.Sound keeps) (hx : s.graph.effects[e]? = some x) :
    (s.start e x).Sound keeps ∧ s.Moves (some e) (s.start e x) := by
  have sp : s.graph.Spares (some e) (s.graph.start e x) := .start h.tended.owns hx
  have world : (s.graph.start e x).world = s.graph.world := Graph.start_world
  refine ⟨⟨?_, ?_, ?_⟩, .of_spares sp ?_ fun _ => rfl⟩
  · rw [Traced.start, Graph.start_scopes]
    exact .cons (.tracked (by simp) (by simp)) (h.frames.imp fun _ _ hm => hm.imp sp.shows)
  · exact h.tended.set sp.lasting Graph.start_effects (by simp) (h.tended.owned hx :)
  · exact fun hk => (h.kept (world ▸ hk)).lasting sp.lasting
  · exact Nat.le_of_eq (by rw [Traced.start, Graph.start_effects, List.length_set])

/-- A run ends: unless the effect has been disposed meanwhile, it is attached to all that the run
has read. -/
theorem Sound.finish (h : s.Sound keeps) (hx : s.graph.effects[e]? = some x) {r : Run V}
    {frames : List (Option (Run V))} (hf : s.trail.frames = some r :: frames) :
    (s.finish e).Sound keeps ∧ s.Moves (some e) (s.finish e) ∧
      (s.finish e).graph.Resting e ∧ (s.finish e).Good e := by
  obtain ⟨z, rests⟩ := h.tended.rests hx
  have sp : s.graph.Spares (some e) (s.finish e).graph := .finish s.graph e
  have hlt := (List.getElem?_eq_some_iff.1 hx).1
  have self {w : Effect B} (hw : (s.finish e).graph.effects[e]? = some w) : w = z := by
    rw [Traced.finish, rests.effects, List.getElem?_set_self hlt] at hw
    exact (Option.some.inj hw).symm
  -- The innermost scope is that of the run, as its frame is.
  have inner := h.frames
  rw [hf] at inner
  generalize hs : s.graph.scopes = scopes at inner
  cases inner with
  | cons top rest =>
  cases top with
  | @tracked _ cells known shows =>
  have reads : s.graph.reads = cells := by rw [Graph.reads, hs]
  refine ⟨⟨?_, ?_, ?_⟩, .of_spares sp ?_ fun {d} ho => ?_, ?_, ?_⟩
  · rw [Traced.finish, rests.scopes, hs]
    simp only [Trail.finish, Trail.leave, hf, List.tail_cons]
    exact rest.imp fun _ _ hm => hm.imp sp.shows
  · exact h.tended.set sp.lasting rests.effects rests.targets rests.owned
  · exact fun hk => (h.kept (rests.world ▸ hk)).lasting sp.lasting
  · exact Nat.le_of_eq (by rw [Traced.finish, rests.effects, List.length_set])
  · have hde : d ≠ e := fun hde => ho (congrArg some hde.symm)
    simp [Traced.finish, Trail.finish, hde, Trail.leave]
  · intro w hw
    rw [self hw, rests.resting]
  · intro w hw
    rw [self hw]
    cases hd : z.disposed with
    | true => exact .inl rfl
    | false =>
      refine .inr (.inr ⟨r, by simp [Traced.finish, Trail.finish, hf], fun undisturbed p hp => ?_⟩)
      have shown := shows undisturbed p hp
      obtain ⟨y, hy, -⟩ := Option.map_eq_some_iff.1 shown
      exact ⟨sp.shows shown, rests.hooked hd p.1 (reads ▸ known p hp)
        (List.getElem?_eq_some_iff.1 hy).1⟩

end Traced
end StoryPreview.Reactive
