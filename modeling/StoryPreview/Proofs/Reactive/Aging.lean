import StoryPreview.Proofs.Reactive.Capturing
import StoryPreview.Proofs.Reactive.Courses
import StoryPreview.Proofs.Reactive.Fairness
/-!
How listeners age. Listeners are attached at the end of a cell and leave it only when they are dead,
and a dead listener never comes back to life. So the first listener of a cell stays the first one as
long as it lives, whatever runs do, and when a run is over, no announcement that it has begun is
under way.
-/
namespace StoryPreview.Reactive
variable {B V W : Type}

/-! ### What has happened to cells and listeners -/

def Event.taken? (c : CellId) : Event V → Option V
  | .changed d v _ _ => if d = c then some v else none
  | _ => none

def Event.told? (l : ListenerId) : Event V → Option V
  | .called k v => if k = l then some v else none
  | _ => none

theorem Event.IsQuiet.taken {e : Event V} (h : e.IsQuiet) (c : CellId) : e.taken? c = none := by
  cases e <;> first | rfl | cases h

theorem Event.IsQuiet.told {e : Event V} (h : e.IsQuiet) (l : ListenerId) : e.told? l = none := by
  cases e <;> first | rfl | cases h

namespace Graph
variable {same : V → V → Bool} {apt : B → Prop} {g g' g'' : Graph B V W} {l : ListenerId}
    {c : CellId} {v : V}

def taken (g : Graph B V W) (c : CellId) : List V :=
  (g.history.filterMap fun e => e.2.taken? c).reverse

def told (g : Graph B V W) (l : ListenerId) : List V :=
  (g.history.filterMap fun e => e.2.told? l).reverse

structure Recorded (g : Graph B V W) : Prop where
  taken : ∀ {c : CellId}, g.cells.length ≤ c → g.taken c = []
  told : ∀ {l : ListenerId}, g.listeners.length ≤ l → g.told l = []

theorem taken_congr (h : g'.history = g.history) (c : CellId) : g'.taken c = g.taken c := by
    rw [taken, taken, h]

theorem told_congr (h : g'.history = g.history) (l : ListenerId) :
    g'.told l = g.told l := by rw [told, told, h]

theorem taken_cons {span : Option Span} {e : Event V} (h : g'.history = (span, e) :: g.history)
    (c : CellId) : g'.taken c = g.taken c ++ (e.taken? c).toList := by
  rw [taken, taken, h, List.filterMap_cons]
  cases e.taken? c <;> simp

theorem told_cons {span : Option Span} {e : Event V} (h : g'.history = (span, e) :: g.history)
    (l : ListenerId) : g'.told l = g.told l ++ (e.told? l).toList := by
  rw [told, told, h, List.filterMap_cons]
  cases e.told? l <;> simp

theorem heard_of_quiet {news : List (Option Span × Event V)} (h : g'.history = news ++ g.history)
    (quiet : ∀ e ∈ news, e.2.IsQuiet) : g'.taken = g.taken ∧ g'.told = g.told := by
  have silent {f : Event V → Option V} (hf : ∀ e : Event V, e.IsQuiet → f e = none) :
      news.filterMap (fun e => f e.2) = [] :=
    List.filterMap_eq_nil_iff.2 fun e he => hf e.2 (quiet e he)
  refine ⟨funext fun c => ?_, funext fun l => ?_⟩
  · rw [taken, taken, h, List.filterMap_append, silent fun e he => he.taken c, List.nil_append]
  · rw [told, told, h, List.filterMap_append, silent fun e he => he.told l, List.nil_append]

theorem start_history (g : Graph B V W) (e : EffectId) (x : Effect B) :
    (g.start e x).history = (g.span, .started e) :: g.history := by
  change ((g.releaseAll x.subscriptions).span, Event.started e) ::
    (g.releaseAll x.subscriptions).history = _
  rw [releaseAll_eq]

theorem dispose_history (g : Graph B V W) (e : EffectId) : (g.dispose e).history = g.history := by
  rcases dispose_cases g e with ⟨h, -⟩ | ⟨x, hx, -, h⟩
  · rw [h]
  · rw [h, releaseAll_eq]

theorem finish_history (g : Graph B V W) (e : EffectId) :
    ∃ news, (g.finish e).history = news ++ g.history ∧ ∀ e ∈ news, e.2.IsQuiet := by
  rcases g.finish_cases e with ⟨effects, -, finished⟩ | ⟨x, hx, undisposed⟩
  · rw [finished]
    exact ⟨[], rfl, by simp⟩
  · have attached := attach_eq e x.epoch g.reads g.pop
    rw [finish_eq hx undisposed]
    refine ⟨[(g.span, .ran e (g.pop.attach e x.epoch g.reads).1.length (x.runs + 1))], ?_,
      by simp [Event.IsQuiet]⟩
    change ((g.pop.attach e x.epoch g.reads).2.span, _) ::
      (g.pop.attach e x.epoch g.reads).2.history = _
    rw [attached]
    rfl

theorem Tick.exists_quiet (h : g.Tick apt g') :
    ∃ news, g'.history = news ++ g.history ∧ ∀ e ∈ news, e.2.IsQuiet := by
  cases h with
  | aside parts world history quiet => exact ⟨_, history, quiet⟩
  | addCell v => exact ⟨[], rfl, by simp⟩
  | subscribe c fit => exact ⟨[], rfl, by simp⟩
  | release l => exact ⟨[], rfl, by simp⟩
  | addEffect body => exact ⟨[], rfl, by simp⟩
  | start e x => exact ⟨[_], start_history g e x, by simp [Event.IsQuiet]⟩
  | finish e => exact finish_history g e
  | dispose e => exact ⟨[], dispose_history g e, by simp⟩
  | drop e => exact ⟨[], dispose_history g e, by simp⟩

theorem Tick.heard (h : g.Tick apt g') : g'.taken = g.taken ∧ g'.told = g.told := by
  obtain ⟨news, history, quiet⟩ := h.exists_quiet
  exact heard_of_quiet history quiet

/-! ### What a write does -/

theorem pinAll_history (ls : List ListenerId) (g : Graph B V W) :
    (ls.foldl pin g).history = g.history := by
  induction ls generalizing g with
  | nil => rfl
  | cons l ls ih => exact ih (g.pin l)

theorem unpinAll_history (ls : List ListenerId) (g : Graph B V W) :
    (ls.foldl unpin g).history = g.history := by
  induction ls generalizing g with
  | nil => rfl
  | cons l ls ih => exact ih (g.unpin l)

/-- A cell takes a value, and its living listeners are captured. -/
structure Takes (c : CellId) (v : V) (ls : List ListenerId) (g g' : Graph B V W) : Prop where
  known : c < g.cells.length
  live : ls = g.liveSlots c
  alike : ∃ version, (g.withCell c ⟨v, version, ls⟩).Alike g'
  history : ∃ version, g'.history = (g.span, .changed c v version ls.length) :: g.history
  pins : ∀ {l : ListenerId}, l < g.listeners.length → g'.pinsOf l = g.pinsOf l + ls.count l

theorem takes_of_assign {ls : List ListenerId} {x : Cell V} (hx : g.cells[c]? = some x)
    (differs : same x.value v = false) (h : g.assign same c v = some (ls, g')) :
    g.Takes c v ls g' := by
  obtain ⟨g₁, changed, alike⟩ := assign_changed hx differs
  obtain ⟨rfl, rfl⟩ := Prod.mk.inj (Option.some.inj (changed.symm.trans h))
  refine ⟨(List.getElem?_eq_some_iff.1 hx).1, rfl, ⟨_, alike⟩, ⟨x.version + 1, ?_⟩,
    fun hl => pinsOf_assign h hl⟩
  simp only [assign, hx, differs, Option.map_some, Bool.false_eq_true, if_false, Option.some.injEq,
    Prod.mk.injEq] at h
  obtain ⟨live, rfl⟩ := h
  rw [pinAll_history, ← live]
  rfl

/-- A write leaves everything as it is, or the cell takes the value. -/
theorem assign_cases {ls : List ListenerId} (h : g.assign same c v = some (ls, g')) :
    ls = [] ∧ g' = g ∨ g.Takes c v ls g' := by
  obtain ⟨x, hx, h'⟩ := Option.map_eq_some_iff.1 h
  split at h'
  · obtain ⟨rfl, rfl⟩ := Prod.mk.inj h'
    exact .inl ⟨rfl, rfl⟩
  · rename_i differs
    exact .inr (takes_of_assign hx (Bool.eq_false_iff.2 differs) h)

/-! ### Aging -/

theorem Alike.guarded (h : g.Alike g') (l : ListenerId) :
    g'.listeners[l]?.map Listener.guarded = g.listeners[l]?.map Listener.guarded := by
  have listener := congrArg (Option.map Prod.snd) (h.listener l)
  rw [Option.map_map, Option.map_map] at listener
  exact listener

theorem Lasting.length_le (h : g.Lasting g') : g.listeners.length ≤ g'.listeners.length := by
  refine Nat.le_of_not_lt fun hlt => ?_
  obtain ⟨y, hy, -⟩ := h (List.getElem?_eq_getElem hlt)
  exact Nat.lt_irrefl _ (List.getElem?_eq_some_iff.1 hy).1

theorem isLive_eq (g : Graph B V W) (l : ListenerId) :
    g.isLive l = ((g.listeners[l]?.map Listener.guarded).getD false || g.pinsOf l != 0) := by
  cases h : g.listeners[l]? <;> simp [isLive, pinsOf, Listener.isLive, h]

structure Ages (g g' : Graph B V W) : Prop where
  lasting : g.Lasting g'
  cells : g.cells.length ≤ g'.cells.length
  live : ∀ {l : ListenerId}, l < g.listeners.length → g'.isLive l = true → g.isLive l = true
  slots : ∀ {l : ListenerId} {c : CellId}, l < g.listeners.length → l ∈ g'.slotsOf c →
    l ∈ g.slotsOf c
  stays : ∀ {l : ListenerId} {c : CellId}, l < g.listeners.length → g'.isLive l = true →
    l ∈ g.slotsOf c → l ∈ g'.slotsOf c
  ordered : g.Ordered → g'.Ordered

namespace Ages

theorem trans (h : g.Ages g') (h' : g'.Ages g'') : g.Ages g'' where
  lasting := Lasting.trans h.lasting h'.lasting
  cells := Nat.le_trans h.cells h'.cells
  live := fun hl live =>
    h.live hl (h'.live (Nat.lt_of_lt_of_le hl (Lasting.length_le h.lasting)) live)
  slots := fun hl hm =>
    h.slots hl (h'.slots (Nat.lt_of_lt_of_le hl (Lasting.length_le h.lasting)) hm)
  stays := fun hl live hm =>
    have hl' := Nat.lt_of_lt_of_le hl (Lasting.length_le h.lasting)
    h'.stays hl' live (h.stays hl (h'.live hl' live) hm)
  ordered := fun ordered => h'.ordered (h.ordered ordered)

theorem of_slots (lasting : g.Lasting g') (cells : g.cells.length ≤ g'.cells.length)
    (slots : g'.slotsOf = g.slotsOf)
    (live : ∀ {l : ListenerId}, g'.isLive l = true → g.isLive l = true) : g.Ages g' where
  lasting := lasting
  cells := cells
  live := fun _ => live
  slots := fun _ hm => slots ▸ hm
  stays := fun _ _ hm => slots.symm ▸ hm
  ordered := fun ordered => ordered.thin (fun c => by rw [slots]) (Lasting.length_le lasting)

theorem of_parts (h : g.SameParts g') : g.Ages g' :=
  of_slots (Lasting.of_eq h.listeners) (Nat.le_of_eq (by rw [h.cells]))
      (slotsOf_congr h.cells) fun {l} live => by
    rwa [isLive, h.listeners] at live

theorem refl (g : Graph B V W) : g.Ages g := of_parts ⟨rfl, rfl, rfl⟩

theorem addCell (g : Graph B V W) (v : V) : g.Ages (g.addCell v).2 :=
  of_slots (Lasting.of_eq rfl) (by simp [Graph.addCell]) (slotsOf_addCell g v) id

theorem addEffect (g : Graph B V W) (body : B) : g.Ages (g.addEffect body).2 :=
  of_slots (Lasting.of_eq rfl) (Nat.le_refl _) rfl id

theorem releases (ls : List ListenerId) (cells : g'.cells = g.cells)
    (listeners : g'.listeners = (g.releaseAll ls).listeners) :
    g.Ages g' := by
  have lasting : (g.releaseAll ls).Lasting g' := Lasting.of_eq listeners
  refine of_slots (Lasting.trans (Steady.releaseAll g ls).reaction lasting)
    (Nat.le_of_eq (by rw [cells])) (slotsOf_congr cells) ?_
  intro l live
  rw [isLive, listeners, releaseAll_listener] at live
  rw [isLive]
  cases hy : g.listeners[l]? with
  | none => simp [hy] at live
  | some y =>
    simp only [hy, Option.map_some] at live
    split at live
    · simpa [Listener.isLive] using Or.inr live
    · exact live

theorem alike (h : g.Alike g') (pins : ∀ l, g'.pinsOf l ≤ g.pinsOf l) : g.Ages g' := by
  refine of_slots h.steady.reaction (Nat.le_of_eq (by rw [h.cells]))
    (slotsOf_congr h.cells) fun {l} live => ?_
  have fewer := pins l
  rw [isLive_eq, h.guarded] at live
  rw [isLive_eq]
  simp only [Bool.or_eq_true, bne_iff_ne] at live ⊢
  exact live.imp_right fun hp hz => hp (Nat.le_zero.1 (hz ▸ fewer))

theorem unpinAll (ls : List ListenerId) (g : Graph B V W) : g.Ages (ls.foldl unpin g) :=
  alike (Alike.foldl Alike.unpin ls g) fun l => by
    rw [pinsOf_unpinAll]
    exact Nat.sub_le _ _

theorem subscribe (g : Graph B V W) (c : CellId) (r : Reaction B) : g.Ages (g.subscribe c r).2 where
  lasting := (Steady.subscribe g c r).reaction
  cells := Nat.le_of_eq (subscribe_cells_length c r).symm
  live := by
    intro l hl live
    rwa [isLive, subscribe_listener_old c r hl] at live
  slots := by
    intro l d hl hm
    rw [slotsOf_subscribe, List.mem_append] at hm
    refine hm.resolve_right fun hm => ?_
    split at hm
    · exact Nat.lt_irrefl _ (List.mem_singleton.1 hm ▸ hl)
    · cases hm
  stays := by
    intro l d hl live hm
    rw [slotsOf_subscribe]
    exact List.mem_append_left _ hm
  ordered := fun ordered => ordered.subscribe c r

theorem attach (e epoch : Nat) (cs : List CellId) (g : Graph B V W) :
    g.Ages (g.attach e epoch cs).2 := by
  induction cs generalizing g with
  | nil => exact refl g
  | cons c cs ih => exact (subscribe g c _).trans (ih _)

theorem finish (g : Graph B V W) (e : EffectId) : g.Ages (g.finish e) := by
  have popped : g.Ages g.pop := of_parts ⟨rfl, rfl, rfl⟩
  rcases g.finish_cases e with ⟨effects, -, finished⟩ | ⟨x, hx, undisposed⟩
  · rw [finished]
    exact of_slots (Lasting.of_eq rfl) (Nat.le_refl _) rfl id
  · rw [finish_eq hx undisposed]
    exact (popped.trans (attach e x.epoch g.reads g.pop)).trans
      (of_slots (Lasting.of_eq rfl) (Nat.le_refl _) rfl id)

theorem dispose (g : Graph B V W) (e : EffectId) : g.Ages (g.dispose e) := by
  rcases dispose_cases g e with ⟨h, -⟩ | ⟨x, hx, -, h⟩
  · rw [h]
    exact refl g
  · rw [h]
    exact releases x.subscriptions (by rw [releaseAll_cells]) rfl

theorem tick (h : g.Tick apt g') : g.Ages g' := by
  cases h with
  | aside parts => exact of_parts parts
  | addCell v => exact addCell g v
  | subscribe c fit => exact subscribe g c _
  | release l => exact releases [l] rfl rfl
  | addEffect body => exact addEffect g body
  | start e x => exact releases x.subscriptions start_cells rfl
  | finish e => exact finish g e
  | dispose e => exact dispose g e
  | drop e => exact (dispose g e).trans (of_slots (Lasting.of_eq rfl) (Nat.le_refl _) rfl id)

/-- A cell that takes a value loses none but dead listeners, and only living ones are captured. -/
theorem takes {ls : List ListenerId} (h : g.Takes c v ls g') : g.Ages g' := by
  obtain ⟨version, alike⟩ := h.alike
  have old {l : ListenerId} (hl : l < g.listeners.length) : g'.isLive l = g.isLive l := by
    rw [isLive_eq g', alike.guarded, h.pins hl, Bool.eq_iff_iff, isLive_eq g]
    simp only [Bool.or_eq_true, bne_iff_ne, ne_eq, Nat.add_eq_zero_iff, not_and_or]
    refine ⟨fun live => ?_, fun live => live.imp_right .inl⟩
    rcases live with guarded | pinned | captured
    · exact .inl guarded
    · exact .inr pinned
    · have hm : l ∈ g.liveSlots c := h.live ▸ List.count_pos_iff.1 (Nat.pos_of_ne_zero captured)
      have live := (mem_liveSlots.1 hm).2
      rwa [isLive_eq, Bool.or_eq_true, bne_iff_ne] at live
  have slots (d : CellId) : g'.slotsOf d = if c = d then g.liveSlots c else g.slotsOf d := by
    rw [slotsOf_congr alike.cells, slotsOf_withCell h.known]
    split
    · exact h.live
    · rfl
  have thinner (d : CellId) : (g'.slotsOf d).Sublist (g.slotsOf d) := by
    rw [slots]
    split
    · rename_i hd
      exact hd ▸ List.filter_sublist
    · exact .refl _
  constructor
  case lasting => exact alike.steady.reaction
  case cells => rw [alike.cells]; simp [withCell]
  case live =>
    intro l hl live
    rwa [← old hl]
  case slots => exact fun _ hm => (thinner _).subset hm
  case stays =>
    intro l d hl live hm
    rw [slots]
    split
    · rename_i hd
      exact mem_liveSlots.2 ⟨hd ▸ hm, old hl ▸ live⟩
    · exact hm
  case ordered => exact fun ordered => ordered.thin thinner alike.length_le

theorem assign {ls : List ListenerId} (h : g.assign same c v = some (ls, g')) : g.Ages g' := by
  rcases assign_cases h with ⟨-, rfl⟩ | takes
  · exact refl g'
  · exact .takes takes

end Ages

theorem Tick.world (h : g.Tick apt g') : g'.world = g.world := by
  cases h with
  | aside parts world => exact world
  | addCell v => rfl
  | subscribe c fit => rfl
  | release l => rfl
  | addEffect body => rfl
  | start e x => exact start_world
  | finish e => exact Logged.finish_world g e
  | dispose e => exact dispose_world
  | drop e => exact drop_world

theorem Tick.shows (h : g.Tick apt g') {p : CellId × V} (shows : g.Shows p) : g'.Shows p := by
  have of_steady (steady : g.Steady g') : g'.Shows p := (steady.value p.1).trans shows
  cases h with
  | aside parts => exact of_steady parts.steady
  | addCell v =>
    have spares : g.Spares none (g.addCell v).2 := .addCell g v
    exact spares.shows shows
  | subscribe c fit => exact of_steady (.subscribe g c _)
  | release l => exact of_steady (.releaseAll g [l])
  | addEffect body => exact of_steady (.of_eq rfl rfl)
  | start e x => exact of_steady (.start g e x)
  | finish e => exact (Spares.finish g e).shows shows
  | dispose e => exact of_steady (.dispose g e)
  | drop e => exact of_steady (.drop g e)

/-- A new listener is for an effect, or has an apt reaction. -/
theorem Tick.newcomer (h : g.Tick apt g') {y : Listener B} (hy : g'.listeners[l]? = some y)
    (new : g.listeners.length ≤ l) : (∃ e epoch, y.reaction = .rerun e epoch) ∨ ∃ b, apt b ∧
    y.reaction = .call b := by
  have none {P : Prop} (same : g'.listeners.length = g.listeners.length) : P :=
    absurd (List.getElem?_eq_some_iff.1 hy).1 (Nat.not_lt_of_le (same ▸ new))
  have disposed (e : EffectId) : (g.dispose e).listeners.length = g.listeners.length := by
    rcases dispose_cases g e with ⟨h, -⟩ | ⟨x, hx, -, h⟩
    · rw [h]
    · rw [h, length_releaseAll]
  cases h with
  | aside parts => exact none (by rw [parts.listeners])
  | addCell v => exact none rfl
  | subscribe c fit =>
    have hlt := (List.getElem?_eq_some_iff.1 hy).1
    rw [subscribe_length] at hlt
    obtain rfl := Nat.le_antisymm new (Nat.le_of_lt_succ hlt)
    rw [subscribe_listener_new] at hy
    obtain rfl := Option.some.inj hy
    exact .inr ⟨_, fit, rfl⟩
  | release l => exact none (length_releaseAll [l])
  | addEffect body => exact none rfl
  | start e x => exact none (length_releaseAll x.subscriptions)
  | finish e =>
    rcases g.finish_cases e with ⟨effects, -, finished⟩ | ⟨x, hx, undisposed⟩
    · rw [finished] at none
      exact none rfl
    · rw [finish_listeners hx undisposed, List.getElem?_append_right new] at hy
      obtain ⟨-, rfl⟩ := List.mem_replicate.1 (List.mem_of_getElem? hy)
      exact .inl ⟨e, x.epoch, rfl⟩
  | dispose e => exact none (disposed e)
  | drop e => exact none (disposed e)

/-! ### First listeners -/

structure Leads (g : Graph B V W) (c : CellId) (l : ListenerId) : Prop where
  ordered : g.Ordered
  cell : c < g.cells.length
  listener : l < g.listeners.length
  first : ∀ {k : ListenerId}, k ∈ g.slotsOf c → l ≤ k
  home : ∀ {d : CellId}, l ∈ g.slotsOf d → d = c
  attached : g.isLive l = true → l ∈ g.slotsOf c

namespace Leads

theorem ages (h : g.Leads c l) (ages : g.Ages g') : g'.Leads c l where
  ordered := ages.ordered h.ordered
  cell := Nat.lt_of_lt_of_le h.cell ages.cells
  listener := Nat.lt_of_lt_of_le h.listener (Lasting.length_le ages.lasting)
  first := by
    intro k hk
    by_cases old : k < g.listeners.length
    · exact h.first (ages.slots old hk)
    · exact Nat.le_of_lt (Nat.lt_of_lt_of_le h.listener (Nat.le_of_not_lt old))
  home := fun hm => h.home (ages.slots h.listener hm)
  attached := fun live => ages.stays h.listener live (h.attached (ages.live h.listener live))

/-- As long as it lives, a change of its cell captures it first, and only once. -/
theorem liveSlots (h : g.Leads c l) (live : g.isLive l = true) : ∃ rest, g.liveSlots c = l :: rest ∧
    l ∉ rest := by
  have sorted : (g.liveSlots c).Pairwise (· < ·) := (h.ordered.sorted c).filter _
  have hm : l ∈ g.liveSlots c := mem_liveSlots.2 ⟨h.attached live, live⟩
  cases captured : g.liveSlots c with
  | nil =>
    rw [captured] at hm
    cases hm
  | cons k rest =>
    rw [captured, List.pairwise_cons] at sorted
    rw [captured, List.mem_cons] at hm
    -- Slots are in the order in which their listeners were made, and none of the cell is older.
    have least : l ≤ k := h.first (mem_liveSlots.1 (captured ▸ List.mem_cons_self)).1
    obtain rfl : l = k := hm.resolve_right fun hm => Nat.not_le_of_lt (sorted.1 l hm) least
    exact ⟨rest, rfl, fun hm => Nat.lt_irrefl l (sorted.1 l hm)⟩

/-- Nothing else captures it. -/
theorem not_mem_liveSlots (h : g.Leads c l) {d : CellId} (other : d ≠ c ∨ g.isLive l = false) :
    l ∉ g.liveSlots d := by
  intro hm
  obtain ⟨slot, live⟩ := mem_liveSlots.1 hm
  rcases other with other | dead
  · exact other (h.home slot)
  · exact nomatch live.symm.trans dead

end Leads

/-! ### Runs -/

/-- What a whole run comes to: what is captured meanwhile has been let go. -/
structure Passes (g g' : Graph B V W) : Prop where
  ages : g.Ages g'
  pins : g'.pinsOf = g.pinsOf
  recorded : g.Recorded → g'.Recorded

namespace Passes

theorem of_quiet (ages : g.Ages g') (pins : g'.pinsOf = g.pinsOf) (taken : g'.taken = g.taken)
    (told : g'.told = g.told) : g.Passes g' where
  ages := ages
  pins := pins
  recorded := fun recorded =>
    ⟨fun hc => by rw [taken]; exact recorded.taken (Nat.le_trans ages.cells hc),
      fun hl =>
        by rw [told]; exact recorded.told (Nat.le_trans (Lasting.length_le ages.lasting) hl)⟩

theorem refl (g : Graph B V W) : g.Passes g := ⟨.refl g, rfl, id⟩

theorem trans (h : g.Passes g') (h' : g'.Passes g'') : g.Passes g'' :=
  ⟨h.ages.trans h'.ages, h'.pins.trans h.pins, fun recorded => h'.recorded (h.recorded recorded)⟩

theorem tick (h : g.Tick apt g') : g.Passes g' := by
  refine of_quiet (.tick h) ?_ h.heard.1 h.heard.2
  cases h with
  | aside parts => exact pinsOf_congr parts.listeners
  | addCell v => exact pinsOf_congr rfl
  | subscribe c fit => exact pinsOf_subscribe c _
  | release l => exact pinsOf_releaseAll [l]
  | addEffect body => exact pinsOf_congr rfl
  | start e x => exact pinsOf_releaseAll (g := g) x.subscriptions
  | finish e => exact pinsOf_finish g e
  | dispose e => exact pinsOf_dispose e
  | drop e => exact pinsOf_drop e

theorem called {y : Listener B} (hy : g.listeners[l]? = some y) (v : V) :
    g.Passes (g.record (.called l v)) where
  ages := .of_parts ⟨rfl, rfl, rfl⟩
  pins := pinsOf_congr rfl
  recorded := by
    intro recorded
    refine ⟨fun {c} hc => ?_, fun {k} hk => ?_⟩
    · rw [taken_cons (g := g) rfl]
      exact (List.append_nil _).trans (recorded.taken hc)
    · have other : l ≠ k :=
        fun hlk => Nat.not_lt_of_le (hlk ▸ hk) (List.getElem?_eq_some_iff.1 hy).1
      rw [told_cons (g := g) rfl, recorded.told hk, Event.told?, if_neg other]
      rfl

/-- What a write captures it lets go in the end. -/
theorem write {ls : List ListenerId} (h : g.assign same c v = some (ls, g'))
    (told : g'.Passes g'') : g.Passes (ls.foldl unpin g'') := by
  have ages := ((Ages.assign h).trans told.ages).trans (.unpinAll ls g'')
  rcases assign_cases h with ⟨rfl, rfl⟩ | takes
  · exact told
  refine ⟨ages, ?_, fun recorded => ?_⟩
  · funext l
    rw [pinsOf_unpinAll, told.pins]
    by_cases hl : l < g.listeners.length
    · rw [takes.pins hl, Nat.add_sub_cancel]
    · obtain ⟨version, alike⟩ := takes.alike
      have out := Nat.le_of_not_lt hl
      rw [pinsOf_none out, pinsOf_none (Nat.le_trans alike.symm.length_le out), Nat.zero_sub]
  · obtain ⟨version, history⟩ := takes.history
    have middle : g'.Recorded := by
      have older := Ages.assign h
      refine ⟨fun {d} hd => ?_, fun {l} hl => ?_⟩
      · have other : c ≠ d :=
          fun hcd => Nat.not_lt_of_le (Nat.le_trans older.cells (hcd ▸ hd)) takes.known
        rw [taken_cons history, recorded.taken (Nat.le_trans older.cells hd), Event.taken?,
          if_neg other]
        rfl
      · rw [told_cons history, recorded.told (Nat.le_trans (Lasting.length_le older.lasting) hl)]
        rfl
    obtain ⟨taken, told⟩ := told.recorded middle
    have cells : (ls.foldl unpin g'').cells.length = g''.cells.length := by
      rw [(Alike.foldl Alike.unpin ls g'').cells]
    refine ⟨fun hc => ?_, fun hl => ?_⟩
    · rw [taken_congr (unpinAll_history ls g'')]
      exact taken (cells ▸ hc)
    · rw [told_congr (unpinAll_history ls g'')]
      exact told (Nat.le_trans (Alike.foldl Alike.unpin ls g'').length_le hl)

theorem announces {ls : List ListenerId} (h : Announces (fun _ _ => Passes) v ls g g') :
    g.Passes g' := by
  induction ls generalizing g with
  | nil =>
    obtain rfl : g = g' := h
    exact refl g
  | cons l ls ih =>
    obtain ⟨g₁, first, rest⟩ := h
    exact first.trans (ih rest)

theorem course (same : V → V → Bool) :
    Course same (fun _ _ => True) (fun _ : B => True) (Passes (W := W)) fun _ _ => Passes where
  refl := refl
  trans := trans
  tick := tick
  change := fun _ => of_quiet (.of_parts ⟨rfl, rfl, rfl⟩) (pinsOf_congr rfl) rfl rfl
  write := fun assigned told => write assigned (announces told)

end Passes

/-- Whatever is run from outside, one after the other, comes to no more than that. -/
theorem passes_runAll {m : Meaning B V W} {calls : List (Nat × Program B V W Unit)}
    (ran : runAll m calls g = some g') : g.Passes g' := by
  have fits {α : Type} (p : Program B V W α) (w : W) : p.Fits (fun _ _ => True) (fun _ => True) w :=
    p.fits_of_all (fun _ _ => trivial) (fun _ => trivial) w
  refine (Passes.course m.same).runAll (fun b => fits _) ?_ (fun call _ => fits call.2) ran
  intro doer keeping l v g g' y hy reacted
  exact (Passes.called hy v).trans ((Passes.course m.same).react keeping (fun b => fits _)
    (fun b w _ => fits _ w) reacted)

end Graph
end StoryPreview.Reactive
