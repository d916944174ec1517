import StoryPreview.Proofs.Reactive.Ending
/-!
The wiring of cells, listeners and effects. In a wired state every effect that is not disposed is
hooked to the cells that its body follows: a change of such a cell makes it run again. One effect
may be excepted, the one that is about to run or runs. Every step that a calm body or its user can
take keeps the wiring.
-/
namespace StoryPreview.Reactive
variable {B V W : Type}

def Event.IsQuiet : Event V → Prop
  | .changed .. | .called .. => False
  | _ => True

namespace Graph

/-- An epoch of an effect is hooked to a cell: a guarded listener of the cell makes the effect run
again. -/
def Hooked (g : Graph B V W) (e : EffectId) (epoch : Nat) (c : CellId) : Prop :=
  ∃ x l y, g.cells[c]? = some x ∧ l ∈ x.slots ∧ g.listeners[l]? = some y ∧
    y.reaction = .rerun e epoch ∧ y.guarded = true

/-- The wiring of a state, with the exception of one effect. `mentions` are the cells that a body
may read, and `follows` those that it reads in every run. -/
structure Wired (mentions follows : B → List CellId) (out : Option EffectId) (g : Graph B V W) :
    Prop where
  slot_lt : ∀ {c : CellId} {x : Cell V} {l : ListenerId}, g.cells[c]? = some x → l ∈ x.slots →
    l < g.listeners.length
  target_lt : ∀ {l : ListenerId} {y : Listener B} {e epoch : Nat}, g.listeners[l]? = some y →
    y.reaction = .rerun e epoch → e < g.effects.length
  own : ∀ {e : EffectId} {x : Effect B} {l : ListenerId}, g.effects[e]? = some x →
    l ∈ x.subscriptions → ∃ y epoch, g.listeners[l]? = some y ∧ y.reaction = .rerun e epoch
  resting : ∀ {e : EffectId} {x : Effect B}, out ≠ some e → g.effects[e]? = some x →
    x.running = false
  owned : ∀ {e : EffectId} {x : Effect B}, g.effects[e]? = some x → x.disposed = false →
    x.owned = true
  known : ∀ {e : EffectId} {x : Effect B} {c : CellId}, g.effects[e]? = some x →
    x.disposed = false → c ∈ mentions x.body → c < g.cells.length
  hooked : ∀ {e : EffectId} {x : Effect B} {c : CellId}, out ≠ some e → g.effects[e]? = some x →
    x.disposed = false → c ∈ follows x.body → g.Hooked e x.epoch c

def Runs (g : Graph B V W) (e : EffectId) (body : B) : Prop :=
  ∃ x, g.effects[e]? = some x ∧ x.disposed = false ∧ x.body = body

def value [Inhabited V] (g : Graph B V W) (c : CellId) : V :=
  (g.cells[c]?.map Cell.value).getD default

theorem value_of_cell [Inhabited V] {g : Graph B V W} {c : CellId} {x : Cell V}
    (h : g.cells[c]? = some x) : g.value c = x.value := by simp [value, h]

/-! What a note leaves alone. -/

section Notes
variable (g : Graph B V W) (v : Event V)

@[simp] theorem record_cells : (g.record v).cells = g.cells := rfl
@[simp] theorem record_listeners : (g.record v).listeners = g.listeners := rfl
@[simp] theorem record_effects : (g.record v).effects = g.effects := rfl
@[simp] theorem record_scopes : (g.record v).scopes = g.scopes := rfl
@[simp] theorem record_world : (g.record v).world = g.world := rfl

end Notes

def recordAll (g : Graph B V W) (ns : List Note) : Graph B V W :=
  ns.foldl (fun g n => g.record (.noted n)) g

theorem recordAll_eq (g : Graph B V W) (ns : List Note) :
    g.recordAll ns = { g with history := (g.recordAll ns).history } := by
  induction ns generalizing g with
  | nil => rfl
  | cons n ns ih => exact ih (g.record (.noted n))

theorem recordAll_history (g : Graph B V W) (ns : List Note) :
    ∃ news, (g.recordAll ns).history = news ++ g.history ∧ ∀ e ∈ news, e.2.IsQuiet := by
  induction ns generalizing g with
  | nil => exact ⟨[], rfl, by simp⟩
  | cons n ns ih =>
    obtain ⟨news, history, quiet⟩ := ih (g.record (.noted n))
    refine ⟨news ++ [(g.span, .noted n)], history.trans (List.append_cons ..),
      List.forall_mem_append.2 ⟨quiet, ?_⟩⟩
    simp [Event.IsQuiet]

section Reports
variable (g : Graph B V W) (ns : List Note)

@[simp] theorem recordAll_cells : (g.recordAll ns).cells = g.cells := by rw [recordAll_eq]
@[simp] theorem recordAll_listeners : (g.recordAll ns).listeners = g.listeners := by
    rw [recordAll_eq]
@[simp] theorem recordAll_effects : (g.recordAll ns).effects = g.effects := by rw [recordAll_eq]
@[simp] theorem recordAll_scopes : (g.recordAll ns).scopes = g.scopes := by rw [recordAll_eq]
@[simp] theorem recordAll_world : (g.recordAll ns).world = g.world := by rw [recordAll_eq]

end Reports

section Parts
variable (g : Graph B V W) (w : W) (span : Option Span)

@[simp] theorem withWorld_cells : (g.withWorld w).cells = g.cells := rfl
@[simp] theorem withWorld_listeners : (g.withWorld w).listeners = g.listeners := rfl
@[simp] theorem withWorld_effects : (g.withWorld w).effects = g.effects := rfl
@[simp] theorem withWorld_scopes : (g.withWorld w).scopes = g.scopes := rfl
@[simp] theorem withWorld_world : (g.withWorld w).world = w := rfl
@[simp] theorem withSpan_cells : (g.withSpan span).cells = g.cells := rfl
@[simp] theorem withSpan_listeners : (g.withSpan span).listeners = g.listeners := rfl
@[simp] theorem withSpan_effects : (g.withSpan span).effects = g.effects := rfl
@[simp] theorem withSpan_scopes : (g.withSpan span).scopes = g.scopes := rfl
@[simp] theorem withSpan_world : (g.withSpan span).world = g.world := rfl

end Parts

section Track
variable (g : Graph B V W) (c : CellId)

@[simp] theorem track_cells : (g.track c).cells = g.cells := by
    unfold track; split <;> (try split) <;> rfl
@[simp] theorem track_listeners : (g.track c).listeners = g.listeners := by
  unfold track; split <;> (try split) <;> rfl
@[simp] theorem track_effects : (g.track c).effects = g.effects := by
  unfold track; split <;> (try split) <;> rfl
@[simp] theorem track_world : (g.track c).world = g.world := by
    unfold track; split <;> (try split) <;> rfl

theorem track_untracked (h : g.scopes = []) : g.track c = g := by simp [track, h]

/-- A read in a running effect is among the reads of the effect from then on. -/
theorem track_tracked {cs : List CellId} {scopes : List Scope}
    (h : g.scopes = .tracked cs :: scopes) :
    ∃ cs', (g.track c).scopes = .tracked cs' :: scopes ∧ c ∈ cs' ∧ (∀ d ∈ cs, d ∈ cs') ∧
      ∀ d ∈ cs', d ∈ cs ∨ d = c := by
  simp only [track, h]
  split
  · exact ⟨cs, h, ‹_›, fun d hd => hd, fun d hd => .inl hd⟩
  · exact ⟨cs ++ [c], rfl, by simp, fun d hd => by simp [hd], fun d hd => by simpa using hd⟩

end Track

variable {mentions follows : B → List CellId} {out : Option EffectId} {g g' : Graph B V W}

/-- The wiring is a matter of cells, listeners and effects. -/
theorem Wired.congr (h : g.Wired mentions follows out) (hc : g'.cells = g.cells)
    (hl : g'.listeners = g.listeners) (he : g'.effects = g.effects) :
    g'.Wired mentions follows out := by
  obtain ⟨h1, h2, h3, h4, h5, h6, h7⟩ := h
  constructor <;> simp only [Hooked, hc, hl, he] <;> assumption

theorem Wired.except (h : g.Wired mentions follows none) (e : EffectId) :
    g.Wired mentions follows (some e) :=
  { h with
    resting := fun _ => h.resting (by simp)
    hooked := fun _ => h.hooked (by simp) }

theorem Wired.addCell (h : g.Wired mentions follows out) (v : V) :
    (g.addCell v).2.Wired mentions follows out where
  slot_lt := by
    intro c x l hc hl
    simp only [Graph.addCell, List.getElem?_append] at hc
    split at hc
    · exact h.slot_lt hc hl
    · simp only [List.getElem?_singleton] at hc
      split at hc <;> cases hc
      simp at hl
  target_lt := h.target_lt
  own := h.own
  resting := h.resting
  owned := h.owned
  known := by
    intro e x c he hd hc
    simp only [Graph.addCell, List.length_append, List.length_singleton]
    exact Nat.lt_succ_of_lt (h.known he hd hc)
  hooked := by
    intro e x c ho he hd hc
    obtain ⟨z, l, y, hz, hl, hy⟩ := h.hooked ho he hd hc
    have hlt := (List.getElem?_eq_some_iff.1 hz).1
    exact ⟨z, l, y, by simp [Graph.addCell, List.getElem?_append_left hlt, hz], hl, hy⟩

theorem subscribe_length (c : CellId) (r : Reaction B) :
    (g.subscribe c r).2.listeners.length = g.listeners.length + 1 := by simp [subscribe]

theorem subscribe_cells_length (c : CellId) (r : Reaction B) :
    (g.subscribe c r).2.cells.length = g.cells.length := by simp [subscribe]

theorem subscribe_listener_old {l : ListenerId} (c : CellId) (r : Reaction B)
    (hl : l < g.listeners.length) : (g.subscribe c r).2.listeners[l]? = g.listeners[l]? := by
  simp [subscribe, List.getElem?_append_left hl]

theorem subscribe_listener_new (c : CellId) (r : Reaction B) :
    (g.subscribe c r).2.listeners[g.listeners.length]? = some { reaction := r } := by
    simp [subscribe]

theorem subscribe_cell (c d : CellId) (r : Reaction B) :
    (g.subscribe c r).2.cells[d]? =
      g.cells[d]?.map fun x => if c = d then { x with slots := x.slots ++ [g.listeners.length] }
      else x := by
  simp only [subscribe, List.getElem?_modify]
  cases g.cells[d]? <;> simp

theorem Hooked.subscribe {e : EffectId} {epoch : Nat} {d : CellId} (h : g.Hooked e epoch d)
    (c : CellId) (r : Reaction B) : (g.subscribe c r).2.Hooked e epoch d := by
  obtain ⟨x, l, y, hx, hl, hy, hr⟩ := h
  refine ⟨_, l, y, by rw [subscribe_cell, hx]; rfl, ?_, ?_, hr⟩
  · split
    · exact List.mem_append_left _ hl
    · exact hl
  · rw [subscribe_listener_old c r (List.getElem?_eq_some_iff.1 hy).1, hy]

theorem Wired.subscribe (h : g.Wired mentions follows out) (c : CellId) (r : Reaction B)
    (hr : ∀ e epoch, r = .rerun e epoch → e < g.effects.length) :
    (g.subscribe c r).2.Wired mentions follows out where
  slot_lt := by
    intro d x l hd hl
    rw [subscribe_length]
    rw [subscribe_cell, Option.map_eq_some_iff] at hd
    obtain ⟨z, hz, rfl⟩ := hd
    split at hl
    · simp only [List.mem_append, List.mem_singleton] at hl
      rcases hl with hl | rfl
      · exact Nat.lt_succ_of_lt (h.slot_lt hz hl)
      · exact Nat.lt_succ_self _
    · exact Nat.lt_succ_of_lt (h.slot_lt hz hl)
  target_lt := by
    intro l y e epoch hy he
    by_cases hl : l < g.listeners.length
    · rw [subscribe_listener_old c r hl] at hy
      exact h.target_lt hy he
    · have hlt := (List.getElem?_eq_some_iff.1 hy).1
      rw [subscribe_length] at hlt
      obtain rfl : l = g.listeners.length :=
        Nat.le_antisymm (Nat.le_of_lt_succ hlt) (Nat.le_of_not_lt hl)
      rw [subscribe_listener_new] at hy
      cases hy
      exact hr e epoch he
  own := by
    intro e x l he hl
    obtain ⟨y, epoch, hy, hr⟩ := h.own he hl
    exact ⟨y, epoch, by rw [subscribe_listener_old c r (List.getElem?_eq_some_iff.1 hy).1, hy], hr⟩
  resting := h.resting
  owned := h.owned
  known := by
    intro e x d he hd hc
    rw [subscribe_cells_length]
    exact h.known he hd hc
  hooked := fun ho he hd hc => (h.hooked ho he hd hc).subscribe c r

/-! Listeners that are released. -/

theorem releaseAll_eq (ls : List ListenerId) (g : Graph B V W) :
    g.releaseAll ls = { g with listeners := (g.releaseAll ls).listeners } := by
  induction ls generalizing g with
  | nil => rfl
  | cons l ls ih => exact ih (g.release l)

@[simp] theorem releaseAll_cells (ls : List ListenerId) : (g.releaseAll ls).cells = g.cells := by
  rw [releaseAll_eq]

@[simp] theorem releaseAll_effects (ls : List ListenerId) :
    (g.releaseAll ls).effects = g.effects := by
  rw [releaseAll_eq]

@[simp] theorem releaseAll_scopes (ls : List ListenerId) : (g.releaseAll ls).scopes = g.scopes := by
  rw [releaseAll_eq]

@[simp] theorem releaseAll_world (ls : List ListenerId) : (g.releaseAll ls).world = g.world := by
  rw [releaseAll_eq]

@[simp] theorem length_releaseAll (ls : List ListenerId) :
    (g.releaseAll ls).listeners.length = g.listeners.length := by
  induction ls generalizing g with
  | nil => rfl
  | cons l ls ih => exact (ih (g := g.release l)).trans (by simp [release])

/-- A released listener keeps its reaction, and the others are as before. -/
theorem releaseAll_listener (ls : List ListenerId) (k : ListenerId) :
    (g.releaseAll ls).listeners[k]? =
      g.listeners[k]?.map fun y => if k ∈ ls then { y with guarded := false } else y := by
  induction ls generalizing g with
  | nil => simp [releaseAll]
  | cons l ls ih =>
    have h := ih (g := g.release l)
    simp only [releaseAll, List.foldl_cons] at h ⊢
    rw [h]
    simp only [release, List.getElem?_modify, List.mem_cons]
    cases g.listeners[k]? with
    | none => rfl
    | some y =>
      by_cases hk : k ∈ ls
      · by_cases hl : l = k <;> simp [hk, hl]
      · by_cases hl : l = k
        · simp [hl]
        · simp [hk, hl, Ne.symm hl]

/-- Releasing what an effect is subscribed to leaves the hooks of the others. -/
theorem Wired.releaseAll {e : EffectId} (h : g.Wired mentions follows (some e))
    (ls : List ListenerId)
    (hls : ∀ l ∈ ls, ∀ y, g.listeners[l]? = some y → ∀ d epoch, y.reaction = .rerun d epoch →
      d = e) :
    (g.releaseAll ls).Wired mentions follows (some e) where
  slot_lt := by
    intro c x l hc hl
    rw [releaseAll_cells] at hc
    simpa using h.slot_lt hc hl
  target_lt := by
    intro l y d epoch hy hr
    rw [releaseAll_listener, Option.map_eq_some_iff] at hy
    obtain ⟨z, hz, rfl⟩ := hy
    have hr' : z.reaction = .rerun d epoch := by split at hr <;> exact hr
    simpa using h.target_lt hz hr'
  own := by
    intro d x l hd hl
    rw [releaseAll_effects] at hd
    obtain ⟨y, epoch, hy, hr⟩ := h.own hd hl
    refine ⟨_, epoch, by rw [releaseAll_listener, hy]; rfl, ?_⟩
    split <;> exact hr
  resting := by
    intro d x hd hx
    rw [releaseAll_effects] at hx
    exact h.resting hd hx
  owned := by
    intro d x hx
    rw [releaseAll_effects] at hx
    exact h.owned hx
  known := by
    intro d x c hx hd hc
    rw [releaseAll_effects] at hx
    simpa using h.known hx hd hc
  hooked := by
    intro d x c hd hx hdis hc
    rw [releaseAll_effects] at hx
    obtain ⟨z, l, y, hz, hl, hy, hr, hg⟩ := h.hooked hd hx hdis hc
    refine ⟨z, l, y, by rwa [releaseAll_cells], hl, ?_, hr, hg⟩
    rw [releaseAll_listener, hy, Option.map_some, if_neg]
    intro hm
    exact hd (by rw [hls l hm y hy d _ hr])

theorem Wired.release (h : g.Wired mentions follows out) {l : ListenerId}
    (hl : ∀ y, g.listeners[l]? = some y → ∀ e epoch, y.reaction ≠ .rerun e epoch) :
    (g.release l).Wired mentions follows out := by
  have listener (k : ListenerId) : (g.release l).listeners[k]? =
      g.listeners[k]?.map fun y => if k ∈ [l] then { y with guarded := false } else y :=
    releaseAll_listener [l] k
  constructor
  case slot_lt =>
    intro c x k hx hk
    simpa [Graph.release] using h.slot_lt hx hk
  case target_lt =>
    intro k y e epoch hy hr
    rw [listener, Option.map_eq_some_iff] at hy
    obtain ⟨z, hz, rfl⟩ := hy
    have hr' : z.reaction = .rerun e epoch := by split at hr <;> exact hr
    exact h.target_lt hz hr'
  case own =>
    intro e x k he hk
    obtain ⟨y, epoch, hy, hr⟩ := h.own he hk
    refine ⟨_, epoch, by rw [listener, hy]; rfl, ?_⟩
    split <;> exact hr
  case resting => exact h.resting
  case owned => exact h.owned
  case known => exact h.known
  case hooked =>
    intro e x c ho he hd hc
    obtain ⟨z, k, y, hz, hk, hy, hr, hg⟩ := h.hooked ho he hd hc
    refine ⟨z, k, y, hz, hk, ?_, hr, hg⟩
    rw [listener, hy, Option.map_some, if_neg]
    rintro hm
    obtain rfl := List.mem_singleton.1 hm
    exact hl y hy _ _ hr

/-- The excepted effect may change, as long as it keeps its body and the subscriptions are its
own. -/
theorem Wired.setEffect {e : EffectId} {x : Effect B} (h : g.Wired mentions follows (some e))
    (x' : Effect B) (hx : g.effects[e]? = some x) (hb : x'.body = x.body)
    (hd : x'.disposed = false → x.disposed = false ∧ x'.owned = x.owned)
    (hs : ∀ l ∈ x'.subscriptions, ∃ y epoch, g.listeners[l]? = some y ∧
      y.reaction = .rerun e epoch) :
    { g with effects := g.effects.set e x' }.Wired mentions follows (some e) := by
  have hlt := (List.getElem?_eq_some_iff.1 hx).1
  have self : (g.effects.set e x')[e]? = some x' := List.getElem?_set_self hlt
  have other (d : EffectId) (hde : e ≠ d) : (g.effects.set e x')[d]? = g.effects[d]? :=
    List.getElem?_set_ne hde
  constructor
  case slot_lt => exact h.slot_lt
  case target_lt =>
    intro l y d epoch hy hr
    simpa using h.target_lt hy hr
  case own =>
    intro d z l hz hl
    by_cases hde : e = d
    · subst hde
      obtain rfl := Option.some.inj (self.symm.trans hz)
      exact hs l hl
    · exact h.own ((other d hde).symm.trans hz) hl
  case resting =>
    intro d z hde hz
    exact h.resting hde ((other d fun he => hde (by rw [he])).symm.trans hz)
  case owned =>
    intro d z hz hdis
    by_cases hde : e = d
    · subst hde
      obtain rfl := Option.some.inj (self.symm.trans hz)
      rw [(hd hdis).2]
      exact h.owned hx (hd hdis).1
    · exact h.owned ((other d hde).symm.trans hz) hdis
  case known =>
    intro d z c hz hdis hc
    by_cases hde : e = d
    · subst hde
      obtain rfl := Option.some.inj (self.symm.trans hz)
      exact h.known hx (hd hdis).1 (hb ▸ hc)
    · exact h.known ((other d hde).symm.trans hz) hdis hc
  case hooked =>
    intro d z c hde hz
    exact h.hooked hde ((other d fun he => hde (by rw [he])).symm.trans hz)

/-- An effect that is not disposed is no longer excepted when it rests and is hooked. -/
theorem Wired.include {e : EffectId} {x : Effect B} (h : g.Wired mentions follows (some e))
    (hx : g.effects[e]? = some x) (hr : x.running = false)
    (hk : x.disposed = false → ∀ c ∈ follows x.body, g.Hooked e x.epoch c) :
    g.Wired mentions follows none :=
  { h with
    resting := by
      intro d z _ hz
      by_cases hde : e = d
      · subst hde
        obtain rfl := Option.some.inj (hx.symm.trans hz)
        exact hr
      · exact h.resting (by simpa using hde) hz
    hooked := by
      intro d z c _ hz hdis hc
      by_cases hde : e = d
      · subst hde
        obtain rfl := Option.some.inj (hx.symm.trans hz)
        exact hk hdis c hc
      · exact h.hooked (by simpa using hde) hz hdis hc }

end Graph
end StoryPreview.Reactive
