import StoryPreview.Proofs.Reactive.Audience
/-!
Announcements in order. Where it is known which cells some effects read, each announcement makes
those of them that hear of the change run once, in the order in which they stand, whatever else is
announced in between; and it is known in which order they stand afterwards.
-/
namespace StoryPreview.Reactive
variable {B V W : Type}

namespace Graph
variable {g g' : Graph B V W} {e : EffectId} {x : Effect B} {c d : CellId} {l : ListenerId}

/-- The effects of a crew that hear of a cell, in order. A crew is given by what its effects
read. -/
def heard (g : Graph B V W) (crew : EffectId → Option (List CellId)) (c : CellId) : List EffectId :=
  (g.audience c).filter fun e => (crew e).isSome

/-- How a crew stands after a run of an effect: one of its own goes to the end, where it has
read. -/
def turn (crew : EffectId → Option (List CellId)) (h : CellId → List EffectId) (e : EffectId) :
    CellId → List EffectId :=
  match crew e with
  | none => h
  | some cs => fun c => (h c).filter (· ≠ e) ++ if c ∈ cs then [e] else []

theorem turn_of_none {crew : EffectId → Option (List CellId)} (he : crew e = none)
    (h : CellId → List EffectId) : turn crew h e = h := by rw [turn, he]

theorem turn_of_some {crew : EffectId → Option (List CellId)} {cs : List CellId}
    (he : crew e = some cs) (h : CellId → List EffectId) (c : CellId) :
    turn crew h e c = (h c).filter (· ≠ e) ++ if c ∈ cs then [e] else [] := by rw [turn, he]

structure Turn (crew : EffectId → Option (List CellId)) (e : EffectId) (g g' : Graph B V W) :
    Prop where
  neat : g'.Neat
  pins : g'.pinsOf = g.pinsOf
  heard : g'.heard crew = turn crew (g.heard crew) e
  target : ∀ {l : ListenerId}, l < g.listeners.length →
    g'.target? l = (g.target? l).filter (· ≠ e)

theorem heard_congr {crew : EffectId → Option (List CellId)} (h : g'.audience = g.audience) :
    g'.heard crew = g.heard crew := by
  funext c
  rw [Graph.heard, Graph.heard, h]

/-- Without an effect that is not of a crew, the same ones are of the crew. -/
theorem filter_crew_ne {crew : EffectId → Option (List CellId)} {es : List EffectId}
    (out : e ∉ es.filter fun e => (crew e).isSome) :
    (es.filter (· ≠ e)).filter (fun e => (crew e).isSome) = es.filter fun e => (crew e).isSome := by
  rw [List.filter_filter]
  refine List.filter_congr fun d hd => ?_
  by_cases hde : d = e
  · subst hde
    cases hc : (crew d).isSome with
    | true => exact absurd (List.mem_filter.2 ⟨hd, hc⟩) out
    | false => rfl
  · simp [hde]

/-- Where an effect goes to the end of the audiences of what it has read, a crew turns. -/
theorem heard_eq_turn {crew : EffectId → Option (List CellId)} {n : CellId → Nat}
    (audience : ∀ c, g'.audience c = (g.audience c).filter (· ≠ e) ++ List.replicate (n c) e)
    (reads : ∀ {cs : List CellId}, crew e = some cs → ∀ c, n c = if c ∈ cs then 1 else 0) :
    g'.heard crew = turn crew (g.heard crew) e := by
  funext c
  rw [heard, audience, List.filter_append]
  cases hcrew : crew e with
  | none =>
    have gone : (List.replicate (n c) e).filter (fun e => (crew e).isSome) = [] := by simp [hcrew]
    rw [turn_of_none hcrew, gone, List.append_nil, filter_crew_ne (by simp [hcrew]), heard]
  | some cs =>
    have tail : (List.replicate (n c) e).filter (fun e => (crew e).isSome) = if c ∈ cs then [e]
        else [] := by
      rw [reads hcrew]
      by_cases hc : c ∈ cs <;> simp [hc, hcrew]
    rw [tail, turn_of_some hcrew, heard, List.filter_filter, List.filter_filter]
    congr 1
    exact List.filter_congr fun d _ => Bool.and_comm _ _

theorem isLive_of_target? (h : g.target? l = some e) : g.isLive l = true := by
  obtain ⟨y, hy, ht⟩ := Option.bind_eq_some_iff.1 h
  obtain ⟨epoch, -, hg⟩ := Listener.target?_eq_some.1 ht
  simp [isLive, hy, Listener.isLive, hg]

theorem filterMap_liveSlots (g : Graph B V W) (c : CellId) :
    (g.liveSlots c).filterMap g.target? = g.audience c := by
  rw [audience, liveSlots, List.filterMap_filter]
  refine List.filterMap_congr fun l _ => ?_
  cases ht : g.target? l with
  | none => simp
  | some e => simp [isLive_of_target? ht]

namespace Alike

theorem target?_eq (h : g.Alike g') : g'.target? = g.target? := by
  funext l
  have key := h.listener l
  rw [target?, target?]
  cases hy : g.listeners[l]? with
  | none =>
    rw [hy, Option.map_none, Option.map_eq_none_iff] at key
    rw [key]
  | some y =>
    obtain ⟨y', hy', hr, hg⟩ := h.listener_some hy
    simp only [hy', Option.bind_some, Listener.target?, hr, hg]

theorem audience_eq (h : g.Alike g') : g'.audience = g.audience := by
  funext c
  rw [audience, audience, slotsOf, slotsOf, h.cells, h.target?_eq]

theorem neat (h : g.Alike g') (hn : g.Neat) : g'.Neat := by
  constructor
  · intro l y d epoch hy hr hg
    obtain ⟨z, hz, hzr, hzg⟩ := h.symm.listener_some hy
    rw [h.effects]
    exact hn.guarded hz (hzr.trans hr) (hzg.trans hg)
  · intro l y d epoch x hy hr hg hx
    obtain ⟨z, hz, hzr, hzg⟩ := h.symm.listener_some hy
    rw [h.effects] at hx
    exact hn.givenUp hz (hzr.trans hr) (hzg.trans hg) hx

end Alike

theorem audience_withCell {x' : Cell V} (hc : c < g.cells.length) (hs : x'.slots = g.liveSlots c) :
    (g.withCell c x').audience = g.audience := by
  funext d
  have target : (g.withCell c x').target? = g.target? := rfl
  by_cases hd : c = d
  · subst hd
    rw [← filterMap_liveSlots g c, audience, slotsOf, withCell_cell hc, if_pos rfl, target]
    simp [hs]
  · rw [audience, slotsOf, withCell_cell hc, if_neg hd, target]
    rfl

theorem pinsOf_pin (g : Graph B V W) (k l : ListenerId) (hl : l < g.listeners.length) :
    (g.pin k).pinsOf l = g.pinsOf l + if k = l then 1 else 0 := by
  simp only [pinsOf, pin, List.getElem?_modify, List.getElem?_eq_getElem hl]
  by_cases hk : k = l <;> simp [hk]

theorem pinsOf_unpin (g : Graph B V W) (k l : ListenerId) :
    (g.unpin k).pinsOf l = g.pinsOf l - if k = l then 1 else 0 := by
  simp only [pinsOf, unpin, List.getElem?_modify]
  cases g.listeners[l]? with
  | none => simp
  | some y => by_cases hk : k = l <;> simp [hk]

theorem pinsOf_pinAll (ls : List ListenerId) (hl : l < g.listeners.length) :
    (ls.foldl pin g).pinsOf l = g.pinsOf l + ls.count l := by
  induction ls generalizing g with
  | nil => rfl
  | cons k ls ih =>
    rw [List.foldl_cons, ih (by simpa [pin] using hl), pinsOf_pin g k l hl, List.count_cons]
    simp only [beq_iff_eq]
    omega

theorem pinsOf_unpinAll (ls : List ListenerId) (l : ListenerId) :
    (ls.foldl unpin g).pinsOf l = g.pinsOf l - ls.count l := by
  induction ls generalizing g with
  | nil => rfl
  | cons k ls ih =>
    rw [List.foldl_cons, ih, pinsOf_unpin, List.count_cons]
    simp only [beq_iff_eq]
    omega

theorem pinsOf_assign {same : V → V → Bool} {v : V} {ls : List ListenerId}
    (h : g.assign same c v = some (ls, g')) (hl : l < g.listeners.length) :
    g'.pinsOf l = g.pinsOf l + ls.count l := by
  obtain ⟨x, -, h⟩ := Option.map_eq_some_iff.1 h
  split at h
  · cases h
    rfl
  · cases h
    exact pinsOf_pinAll _ hl

theorem pinsOf_none (hl : g.listeners.length ≤ l) : g.pinsOf l = 0 := by
  rw [pinsOf, List.getElem?_eq_none hl]
  rfl

end Graph

inductive Plays (acts : EffectId → W → W → Prop) (quiet : W → W → Prop) :
    List EffectId → W → W → Prop where
  | done {w w' : W} (h : quiet w w') : Plays acts quiet [] w w'
  | run {e : EffectId} {es : List EffectId} {w₁ w₂ w₃ w₄ : W}
    (before : quiet w₁ w₂) (act : acts e w₂ w₃)
    (after : Plays acts quiet es w₃ w₄) : Plays acts quiet (e :: es) w₁ w₄

theorem Plays.quietly {acts : EffectId → W → W → Prop} {quiet : W → W → Prop}
    (trans : ∀ w w' w'' : W, quiet w w' → quiet w' w'' → quiet w w'') {es : List EffectId}
    {w w' w'' : W} (h : quiet w w') (hp : Plays acts quiet es w' w'') :
    Plays acts quiet es w w'' := by
  cases hp with
  | done h' => exact .done (trans _ _ _ h h')
  | run before act after => exact .run (trans _ _ _ h before) act after

namespace Calm
variable [Inhabited V] {m : Meaning B V W} (calm : Calm m)

/-- Some bodies read no other cells than those that they follow, and each of them once. -/
structure Exact where
  exact : B → Prop
  reads : ∀ (perform : Doer B V W) {b : B} {g : Graph B V W} {scopes : List Scope}, exact b →
    g.scopes = .tracked [] :: scopes → (∀ c ∈ calm.mentions b, c < g.cells.length) →
    calm.fit g.cells.length g.world →
    (m.body b).Ends m.same perform g fun _ g' =>
      ∃ cs, g'.scopes = .tracked cs :: scopes ∧ cs.Nodup ∧ ∀ c ∈ cs, c ∈ calm.follows b

variable {calm}

def Exact.Knows (x : calm.Exact) (g : Graph B V W) (crew : EffectId → Option (List CellId)) :
    Prop :=
  ∀ {e : EffectId} {b : B} {cs : List CellId}, g.Runs e b → crew e = some cs →
    x.exact b ∧ ∀ c, c ∈ cs ↔ c ∈ calm.follows b

theorem Exact.Knows.kin {x : calm.Exact} {g g' : Graph B V W}
    {crew : EffectId → Option (List CellId)} (h : x.Knows g crew) (kin : g.Kin g') :
    x.Knows g' crew :=
  fun hr hc => h (kin.runs_iff.1 hr) hc

variable (ex : calm.Exact) (perform : Doer B V W) {g : Graph B V W} {e : EffectId} {x : Effect B}
  {crew : EffectId → Option (List CellId)}

/-- A run of an effect is a turn. -/
theorem rerun_turn (hw : calm.Wired (some e) g) (hn : g.Neat) (hx : g.effects[e]? = some x)
    (hd : x.disposed = false) (hr : x.running = false) (hfit : calm.fit g.cells.length g.world)
    (hk : ex.Knows g crew) {g' : Graph B V W} (hg : rerun m perform e g = some g') :
    g.Turn crew e g' := by
  let x₁ : Effect B := { x with running := true, epoch := x.epoch + 1, subscriptions := [] }
  have fit : calm.fit (g.start e x).cells.length (g.start e x).world := by
    rw [Graph.start_cells, Graph.start_world]
    exact hfit
  have known : ∀ c ∈ calm.mentions x.body, c < (g.start e x).cells.length := fun c hc => by
    rw [Graph.start_cells]
    exact hw.known hx hd hc
  have body := calm.body_ends perform x.body (g := g.start e x) Graph.start_scopes known fit
  obtain ⟨_, b, hb, parts, -, cs, hcs, hf⟩ := body
  have exact (h : ex.exact x.body) : cs.Nodup ∧ ∀ c ∈ cs, c ∈ calm.follows x.body := by
    obtain ⟨cs', hcs', nodup, hf'⟩ := (ex.reads perform h Graph.start_scopes known fit).of_run hb
    cases hcs.symm.trans hcs'
    exact ⟨nodup, hf'⟩
  obtain rfl : b.finish e = g' := by
    simpa only [rerun, hx, Option.bind_some, hd, hr, Bool.or_self, Bool.false_eq_true, if_false, hb,
      Option.map_some, Option.some.injEq] using hg
  -- The body leaves the graph as the start of the run has left it: the effect has no listeners, and
  -- is in no audience.
  have listeners : b.listeners = (g.releaseAll x.subscriptions).listeners := parts.listeners
  have cells : b.cells = (g.releaseAll x.subscriptions).cells := parts.cells
  have effects : b.effects = g.effects.set e x₁ := parts.effects.trans Graph.start_effects
  have hx₁ : b.effects[e]? = some x₁ := by
    rw [effects]
    exact List.getElem?_set_self (List.getElem?_eq_some_iff.1 hx).1
  have neat : b.Neat := (hn.next hw hx x₁ fun _ => ⟨hd, Nat.lt_succ_self _⟩).congr listeners effects
  have audience (c : CellId) : b.audience c = (g.audience c).filter (· ≠ e) :=
    (congrFun (Graph.audience_congr (g := g.releaseAll x.subscriptions) cells listeners) c).trans
      (Graph.audience_releaseAll hw hn hx c)
  have target (l : ListenerId) : b.target? l = (g.target? l).filter (· ≠ e) := by
    rw [Graph.target?, listeners]
    exact Graph.target?_releaseAll_subscriptions hw hn hx l
  refine ⟨neat.finish hx₁ hd rfl, ?_, ?_, fun {l} hl => ?_⟩
  · rw [Graph.pinsOf_finish, Graph.pinsOf_congr listeners, Graph.pinsOf_releaseAll]
  · refine Graph.heard_eq_turn (n := fun c => if c < g.cells.length then cs.count c
      else 0) (fun c => ?_) fun {cs'} hcrew c => ?_
    · have reads : b.reads = cs := by simp [Graph.reads, hcs]
      rw [Graph.audience_finish hx₁ hd (parts.wired (hw.start hx)), audience, reads, cells,
        Graph.releaseAll_cells]
    · obtain ⟨he, hcs'⟩ := hk ⟨x, hx, hd, rfl⟩ hcrew
      obtain ⟨nodup, hf'⟩ := exact he
      have same : c ∈ cs ↔ c ∈ cs' := ⟨fun h => (hcs' c).2 (hf' c h), fun h => hf c ((hcs' c).1 h)⟩
      by_cases hc : c ∈ cs'
      · have there : c < g.cells.length := hw.known hx hd (calm.follows_mentions ((hcs' c).1 hc))
        simp [hc, there, nodup.count, same]
      · simp [hc, nodup.count, same]
  · rw [Graph.target?_finish hx₁ hd (by rw [listeners, Graph.length_releaseAll]; exact hl), target]

/-- A call of a listener is a turn of the effect that it is for, or no effect runs. -/
theorem call_turn (depth : Nat) (v : V) {l : ListenerId} {y : Listener B} (hw : calm.Wired none g)
    (hn : g.Neat) (hy : g.listeners[l]? = some y) (hfit : calm.fit g.cells.length g.world)
    (hk : ex.Knows g crew) {g' : Graph B V W}
    (hg : Reactive.perform m (depth + 1) (.call l v) g = some g') :
    (∃ e b, g.target? l = some e ∧ g.Runs e b ∧ calm.acts b g.value g.world g'.world ∧
      g.Turn crew e g') ∨
      g.target? l = none ∧ (g'.world = g.world ∨ ∃ b, calm.hears b v g.world g'.world) ∧
      g.SameParts g' := by
  have target : g.target? l = y.target? := by rw [Graph.target?, hy, Option.bind_some]
  have called : g.SameParts (g.record (.called l v)) := ⟨rfl, rfl, rfl⟩
  simp only [Reactive.perform, hy, Option.bind_some] at hg
  cases hr : y.reaction with
  | call b =>
    obtain ⟨_, k, hrun, parts, hears, -⟩ :=
      calm.reaction_ends (Reactive.perform m depth) b v (g.record (.called l v))
    simp only [hr, react, hrun, Option.map_some, Option.some.injEq] at hg
    subst hg
    exact .inr ⟨by rw [target, Listener.target?, hr], .inr ⟨b, hears⟩,
      ⟨parts.cells, parts.listeners, parts.effects⟩⟩
  | rerun e epoch =>
    obtain ⟨x, hx⟩ : ∃ x, g.effects[e]? = some x :=
      ⟨_, List.getElem?_eq_getElem (hw.target_lt hy hr)⟩
    have resting : x.running = false := hw.resting (by simp) hx
    simp only [hr, react, Graph.record_effects, hx, Option.bind_some, resting, Bool.or_false] at hg
    -- Where all is neat, a guarded listener is one of the latest run, and any other is of an
    -- earlier one.
    cases guarded : y.guarded with
    | true =>
      obtain ⟨z, hz, hd, hepoch, -⟩ := hn.guarded hy hr guarded
      obtain rfl := Option.some.inj (hx.symm.trans hz)
      have owned : x.owned = true := hw.owned hx hd
      simp only [owned, Bool.not_true, Bool.false_eq_true, if_false, hepoch, ne_eq,
        not_true_eq_false] at hg
      have wired : calm.Wired (some e) (g.record (.called l v)) := (called.wired hw).except e
      obtain ⟨k, hrun, -, -, -, -, acts⟩ :=
        calm.rerun_ends (Reactive.perform m depth) wired hx hd resting hfit
      obtain rfl := Option.some.inj (hrun.symm.trans hg)
      have noted : (g.record (.called l v)).Neat := hn.congr rfl rfl
      obtain ⟨neat, pins, heard, turned⟩ :=
        rerun_turn ex (Reactive.perform m depth) wired noted hx hd resting hfit
        (fun hr hc => hk hr hc) hrun
      exact .inl ⟨e, x.body, by simp [target, Listener.target?, hr, guarded],
        ⟨x, hx, hd, rfl⟩, acts, neat, pins, heard, turned⟩
    | false =>
      refine .inr ⟨by simp [target, Listener.target?, hr, guarded], ?_⟩
      have same (k : Graph B V W) (h : k = g.record (.called l v) ∨
          k = (g.record (.called l v)).record (.stale e epoch x.epoch)) :
          (k.world = g.world ∨ ∃ b, calm.hears b v g.world k.world) ∧ g.SameParts k := by
        cases h with
        | inl h => exact h ▸ ⟨.inl rfl, rfl, rfl, rfl⟩
        | inr h => exact h ▸ ⟨.inl rfl, rfl, rfl, rfl⟩
      refine same g' ?_
      split at hg
      · exact .inl (Option.some.inj hg).symm
      · split at hg
        · exact .inr (Option.some.inj hg).symm
        · rename_i current
          have disposed : x.disposed = true := by
            by_contra hd
            have := hn.givenUp hy hr guarded hx (by simpa using hd)
            omega
          simp only [rerun, Graph.record_effects, hx, Option.bind_some, disposed, Bool.true_or,
            if_true] at hg
          exact .inl (Option.some.inj hg).symm

variable (calm) in
/-- What is quiet while a value is announced: whatever effects outside a crew do, and whatever
listeners do with bodies of their own. -/
structure Noise (g : Graph B V W) (crew : EffectId → Option (List CellId)) (val : CellId → V)
    (v : V) (J : W → Prop) (quiet : W → W → Prop) : Prop where
  refl : ∀ w, quiet w w
  trans : ∀ w w' w'' : W, quiet w w' → quiet w' w'' → quiet w w''
  acts : ∀ {e : EffectId} {b : B} {w w' : W}, g.Runs e b → crew e = none → J w →
    calm.acts b val w w' → quiet w w'
  hears : ∀ {b : B} {w w' : W}, J w → calm.hears b v w w' → quiet w w'

theorem Noise.kin {g g' : Graph B V W} {val : CellId → V} {v : V} {J : W → Prop}
    {quiet : W → W → Prop} (h : calm.Noise g crew val v J quiet) (kin : g.Kin g') :
    calm.Noise g' crew val v J quiet :=
  ⟨h.refl, h.trans, fun hr => h.acts (kin.runs_iff.1 hr), h.hears⟩

/-- An announcement to listeners makes the effects of a crew that they are for run in order. -/
theorem announce_turns (depth : Nat) (v : V) {J : W → Prop} {quiet : W → W → Prop}
    {ls : List ListenerId} {es : List EffectId} (hw : calm.Wired none g) (hn : g.Neat)
    (hl : ∀ l ∈ ls, l < g.listeners.length) (hfit : ∀ w, J w → calm.fit g.cells.length w)
    (kept : calm.Kept g.value g.Live v J J) (hJ : J g.world) (hk : ex.Knows g crew)
    (noise : calm.Noise g crew g.value v J quiet)
    (hes : (ls.filterMap g.target?).filter (fun e => (crew e).isSome) = es) (distinct : es.Nodup)
    {g' : Graph B V W} (hg : announce (Reactive.perform m (depth + 1)) v ls g = some g') :
    g'.Neat ∧ g'.pinsOf = g.pinsOf ∧ g'.heard crew = es.foldl (Graph.turn crew) (g.heard crew) ∧
      Plays (fun e w w' => ∃ b, g.Runs e b ∧ calm.acts b g.value w w') quiet es
        g.world g'.world := by
  -- On the listeners that are still to be called. A call takes its effect out of those that the
  -- rest are for, so that the crew's effects stay distinct, and none of them runs twice.
  induction ls generalizing g es with
  | nil =>
    cases hg
    obtain rfl : [] = es := hes
    exact ⟨hn, rfl, rfl, .done (noise.refl _)⟩
  | cons l ls ih =>
    have hlt := hl l List.mem_cons_self
    have rest : ∀ k ∈ ls, k < g.listeners.length := fun k hk => hl k (List.mem_cons_of_mem l hk)
    have hy := List.getElem?_eq_getElem hlt
    obtain ⟨g₁, hrun, wired, steady, kin, change, -⟩ := calm.call_ends depth v hw hy (hfit _ hJ)
    simp only [announce, hrun, Option.bind_some] at hg
    have next {es' : List EffectId} (hn₁ : g₁.Neat)
        (hes' : (ls.filterMap g₁.target?).filter (fun e => (crew e).isSome) = es')
            (hd : es'.Nodup) := by
      have := ih wired hn₁ (fun k hk => kin.listener_lt (rest k hk)) (by rwa [steady.length_eq])
        (by rwa [steady.value_eq, kin.live_eq]) (kept.call hJ hJ change) (hk.kin kin)
        (by rw [steady.value_eq]; exact noise.kin kin) hes' hd hg
      rw [steady.value_eq] at this
      simp only [kin.runs_iff] at this
      exact this
    rcases call_turn ex depth v hw hn hy (hfit _ hJ) hk hrun with
      ⟨e, b, ht, hr, acts, neat, pins, heard, target⟩ | ⟨ht, world, parts⟩
    · have ahead : ls.filterMap g₁.target? = (ls.filterMap g.target?).filter (· ≠ e) := by
        rw [List.filter_filterMap]
        exact List.filterMap_congr fun k hk => target (rest k hk)
      rw [List.filterMap_cons, ht] at hes
      cases hc : crew e with
      | none =>
        have same : (ls.filterMap g₁.target?).filter (fun e => (crew e).isSome) = es := by
          rw [ahead, Graph.filter_crew_ne (by simp [hc]), ← hes]
          simp only [List.filter_cons, hc, Option.isSome_none, Bool.false_eq_true, if_false]
        obtain ⟨neat', pins', heard', plays⟩ := next neat same distinct
        rw [heard, Graph.turn_of_none hc] at heard'
        have still : quiet g.world g₁.world := noise.acts hr hc hJ acts
        exact ⟨neat', pins'.trans pins, heard', plays.quietly noise.trans still⟩
      | some cs =>
        simp only [List.filter_cons, hc, Option.isSome_some, if_true] at hes
        subst hes
        obtain ⟨fresh, distinct⟩ := List.nodup_cons.1 distinct
        obtain ⟨neat', pins', heard', plays⟩ :=
          next neat (by rw [ahead, Graph.filter_crew_ne fresh]) distinct
        rw [heard] at heard'
        exact ⟨neat', pins'.trans pins, heard', .run (noise.refl _) ⟨b, hr, acts⟩ plays⟩
    · have target : g₁.target? = g.target? := by
        funext k
        rw [Graph.target?, Graph.target?, parts.listeners]
      rw [List.filterMap_cons, ht] at hes
      obtain ⟨neat', pins', heard', plays⟩ := next (hn.congr parts.listeners parts.effects)
        (by rw [target]; exact hes) distinct
      rw [Graph.heard_congr (Graph.audience_congr parts.cells parts.listeners)] at heard'
      refine ⟨neat', pins'.trans (Graph.pinsOf_congr parts.listeners), heard', ?_⟩
      rcases world with heq | ⟨b, hears⟩
      · rwa [heq] at plays
      · have still : quiet g.world g₁.world := noise.hears hJ hears
        exact plays.quietly noise.trans still

/-- After a change the effects of a crew have run in the order in which they heard of it. -/
theorem write_turns (depth : Nat) {c : CellId} {v : V} {J : W → Prop} {quiet : W → W → Prop}
    (hw : calm.Wired none g) (hn : g.Neat) (loose : g.Loose) (hc : c < g.cells.length)
    (hfit : ∀ w, J w → calm.fit g.cells.length w)
    (kept : calm.Kept (Function.update g.value c v) g.Live v J J) (hJ : J g.world)
    (hk : ex.Knows g crew) (noise : calm.Noise g crew (Function.update g.value c v) v J quiet)
    (distinct : (g.heard crew c).Nodup) :
    (Program.write c v (.done ())).Ends m.same (Reactive.perform m (depth + 1)) g fun _ g' =>
      m.same (g.value c) v = true ∧ g' = g ∨
      m.same (g.value c) v = false ∧ g'.Neat ∧ g'.Loose ∧
        g'.heard crew = (g.heard crew c).foldl (Graph.turn crew) (g.heard crew) ∧
        Plays (fun e w w' => ∃ b, g.Runs e b ∧ calm.acts b (Function.update g.value c v) w w') quiet
          (g.heard crew c) g.world g'.world := by
  rw [Program.ends_write]
  cases hs : m.same (g.value c) v with
  | true =>
    have hx := List.getElem?_eq_getElem hc
    exact ⟨[], g, Graph.assign_same hx (Graph.value_of_cell hx ▸ hs), g, rfl,
      Program.ends_done.2 (.inl ⟨rfl, rfl⟩)⟩
  | false =>
    obtain ⟨g₁, hassign, ⟨wired, value, length, kin⟩, slots, z, hz, alike⟩ :=
      calm.assign_written hw hc hs
    have world : g₁.world = g.world := alike.world
    have audience : g₁.audience = g.audience :=
      alike.audience_eq.trans (Graph.audience_withCell hc hz)
    have neat : g₁.Neat := alike.neat (hn.congr rfl rfl)
    have target : g₁.target? = g.target? := alike.target?_eq
    obtain ⟨g₂, hann, -⟩ := calm.announce_ends depth v wired slots (by rwa [length])
      (by rwa [value, kin.live_eq]) (by rwa [world])
    obtain ⟨neat₂, pins₂, heard₂, plays⟩ :=
      announce_turns ex depth v wired neat slots (by rwa [length])
        (by rwa [value, kin.live_eq]) (by rwa [world]) (hk.kin kin)
        (by rw [value]; exact noise.kin kin)
      (by rw [target, Graph.filterMap_liveSlots]; rfl) distinct hann
    have unpinned := Graph.Alike.foldl Graph.Alike.unpin (g.liveSlots c) g₂
    refine ⟨g.liveSlots c, g₁, hassign, g₂, hann, ?_⟩
    rw [Program.ends_done]
    refine .inr ⟨rfl, unpinned.neat neat₂, fun l => ?_, ?_, ?_⟩
    · rw [Graph.pinsOf_unpinAll, pins₂]
      cases Nat.lt_or_ge l g.listeners.length with
      | inl hl => rw [Graph.pinsOf_assign hassign hl, loose l, Nat.zero_add, Nat.sub_self]
      | inr hl =>
        have none : g₁.pinsOf l = 0 := Graph.pinsOf_none (Nat.le_trans alike.symm.length_le hl)
        rw [none, Nat.zero_sub]
    · rw [Graph.heard_congr unpinned.audience_eq, heard₂, Graph.heard_congr audience]
    · rw [value, world] at plays
      simp only [kin.runs_iff] at plays
      rwa [unpinned.world]

/-- A new effect comes last. -/
theorem spawn_turn (depth : Nat) {body : B} (hw : calm.Wired none g) (hn : g.Neat)
    (hm : ∀ c ∈ calm.mentions body, c < g.cells.length) (hfit : calm.fit g.cells.length g.world)
    (hk : ex.Knows (g.addEffect body).2 crew) {g' : Graph B V W}
    (hg : Reactive.perform m (depth + 1) (.effect g.effects.length) (g.addEffect body).2 =
      some g') :
    g'.Neat ∧ g'.pinsOf = g.pinsOf ∧ g'.heard crew =
      Graph.turn crew (g.heard crew) g.effects.length := by
  have hx : (g.addEffect body).2.effects[g.effects.length]? = some { body := body } := by
    simp [Graph.addEffect]
  obtain ⟨neat, pins, heard, -⟩ := rerun_turn ex (Reactive.perform m depth) (hw.addEffect body hm)
    (hn.addEffect hw body) hx rfl rfl hfit hk hg
  exact ⟨neat, pins, heard⟩

end Calm
end StoryPreview.Reactive
