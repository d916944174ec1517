import StoryPreview.Proofs.Creating
/-!
What the store shows of a stored value. From its creation on the page is asked to store each value
that the cell takes, once and in order, however writes, answers of other listeners and failures of
the store nest; and nothing more once the stored value has been closed.
-/
namespace StoryPreview.Stored
open Reactive Program
variable {V : Type} {same : V → V → Bool} {perform : Doer Duty V Preview} {g g' : System V}
    {format : Format V}
variable {key : String} {default : V} {s : Stored V} {initial : V} {alone : Prop}

/-! ### Creation -/

/-- Reading leaves the page as it is, apart from what reads are left. -/
theorem readWith?_quiet (parse : String → Except String V) (key : String) :
    (readWith? parse key).Ends same perform g fun _ g' =>
      g.SameParts g' ∧ (∃ news, g'.history = news ++ g.history ∧ ∀ e ∈ news, e.2.IsQuiet) ∧
        g.world.page.Stores key [] g'.world.page := by
  refine readWith?_ends.imp ?_
  rintro _ _ ⟨-, ns, rfl⟩
  refine ⟨⟨by simp, by simp, by simp⟩, Graph.recordAll_history _ ns, ?_⟩
  rw [Graph.recordAll_world]
  exact .of_eq rfl rfl

structure Begins (format : Format V) (key : String) (initial : V) (g g' : System V) : Prop where
  parts : g.SameParts g'
  history : ∃ news, g'.history = news ++ g.history ∧ ∀ e ∈ news, e.2.IsQuiet
  stores : g.world.page.Stores key (format.texts [initial]) g'.world.page

theorem createWith_ends (format : Format V) (key : String) (default : V) :
    (createWith format key default).Ends same perform g fun s g' =>
      ∃ initial g₁, Begins format key initial g g₁ ∧
      s = ⟨key, format, g₁.cells.length, g₁.listeners.length⟩ ∧ g' = withCell g₁ key initial := by
  refine (createWith_made (readWith?_quiet format.read key) default).imp ?_
  rintro s g' ⟨found, g₁, g₂, ⟨parts, ⟨news, history, quiet⟩, untouched⟩, ⟨n, written⟩, made⟩
  refine ⟨found.getD default, g₂, ⟨?_, ?_, ?_⟩, made⟩ <;> rw [written]
  · exact ⟨parts.cells, parts.listeners, parts.effects⟩
  · refine ⟨(g₁.span, .noted n) :: news, ?_, List.forall_mem_cons.2 ⟨trivial, quiet⟩⟩
    exact congrArg (List.cons _) history
  · exact untouched.trans (.storeWith format key _ _)

theorem Begins.ages (h : Begins format key initial g g') : g.Ages g' := .of_parts h.parts

def Unclaimed (key : String) (g : System V) : Prop :=
  ∀ (l : ListenerId) (y : Listener Duty), g.listeners[l]? = some y →
  y.reaction = .call (.store key) → y.guarded = false

theorem Unclaimed.dead (h : Unclaimed key g) (loose : g.Loose) {l : ListenerId} {y : Listener Duty}
    (hy : g.listeners[l]? = some y) (reaction : y.reaction = .call (.store key)) :
    g.isLive l = false := by
  simp [Graph.isLive_eq, loose l, hy, h l y hy reaction]

theorem Unclaimed.sole (h : Unclaimed s.key g) (loose : g.Loose) : s.Sole g :=
  ⟨fun hy reaction live => nomatch (h.dead loose hy reaction).symm.trans live⟩

/-- The new listener is the only one that is alive and writes there. -/
theorem Unclaimed.sole_withCell (h : Unclaimed key g) (loose : g.Loose) (format : Format V) :
    Sole ⟨key, format, g.cells.length, g.listeners.length⟩ (withCell g key initial) := by
  refine ⟨fun {l y} hy reaction live => ?_⟩
  rcases withCell_cases hy with old | ⟨rfl, -⟩
  · have known := (List.getElem?_eq_some_iff.1 old).1
    cases (h.dead loose old reaction).symm.trans (withCell_ages.live known live)
  · rfl

structure Created (s : Stored V) (format : Format V) (key : String) (initial : V)
    (g g' : System V) : Prop where
  named : s.key = key
  written : s.format = format
  attends : g'.Attends s.writer s.cell (.call (.store s.key))
  mirrors : s.Mirrors initial [] g'
  taken : g'.taken s.cell = []
  told : g'.told s.writer = []
  loose : g'.Loose
  stores : g.world.page.Stores key (format.texts [initial]) g'.world.page
  sole : Unclaimed key g → s.Sole g'

/-- What is created is in order. -/
theorem Begins.created (h : Begins format key initial g g') (ordered : g.Ordered)
    (recorded : g.Recorded) (loose : g.Loose) :
    Created ⟨key, format, g'.cells.length, g'.listeners.length⟩ format key initial g
      (withCell g' key initial) := by
  obtain ⟨news, history, quiet⟩ := h.history
  obtain ⟨taken, told⟩ := Graph.heard_of_quiet history quiet
  have nothing : (withCell g' key initial).taken g'.cells.length = [] :=
    (congrFun taken _).trans (recorded.taken
      (Nat.le_of_eq (congrArg List.length h.parts.cells).symm))
  have nobody : (withCell g' key initial).told g'.listeners.length = [] :=
    (congrFun told _).trans (recorded.told
      (Nat.le_of_eq (congrArg List.length h.parts.listeners).symm))
  have loose' : g'.Loose :=
    fun l => (congrFun (Graph.pinsOf_congr h.parts.listeners) l).trans (loose l)
  constructor
  case named => rfl
  case written => rfl
  case attends =>
    refine ⟨?_, congrArg (Option.map fun y => (y.reaction, y.guarded)) withCell_new⟩
    rw [withCell_slots, if_pos rfl]
    exact List.mem_append_right _ List.mem_cons_self
  case taken => exact nothing
  case told => exact nobody
  case mirrors =>
    refine ⟨withCell_leads (h.ages.ordered ordered), ⟨_, withCell_new, rfl⟩,
      ⟨[], ?_, fun _ => rfl⟩, ?_⟩
    · exact nothing.trans (nobody.symm.trans (List.append_nil _).symm)
    · rw [nothing]
      exact withCell_shows
  case loose =>
    intro l
    rw [withCell, Graph.pinsOf_subscribe]
    exact loose' l
  case stores => exact h.stores
  case sole =>
    intro unclaimed
    have unclaimed' : Unclaimed key g' := fun l y hy => unclaimed l y (h.parts.listeners ▸ hy)
    exact unclaimed'.sole_withCell loose' format

/-! ### From creation on -/

def IsOpen (s : Stored V) (g : System V) : Prop := ∃ y, g.listeners[s.writer]? = some y ∧
    y.guarded = true

/-- Between calls from outside a writer is alive as long as it has not been closed. -/
theorem isLive_iff (loose : g.Loose) : g.isLive s.writer = true ↔ s.IsOpen g := by
  rw [Graph.isLive_eq, loose, IsOpen]
  cases g.listeners[s.writer]? <;> simp

structure Undisturbed (m : Meaning Duty V Preview) (key : String)
    (calls : List (Nat × ActionOver V Unit)) : Prop where
  bodies : m.LeavesAlone key
  calls : ∀ call ∈ calls, call.2.LeavesAlone key

structure Reflected (s : Stored V) (initial : V) (g : System V) : Prop where
  /-- The cell shows the value that it has taken last. -/
  shows : g.Shows (s.cell, (g.taken s.cell).getLastD initial)
  /-- The writer is called with values in the order in which the cell takes them, and leaves none
  out. -/
  order : g.told s.writer <+: g.taken s.cell
  /-- It is called with all of them, as long as the stored value is not closed. -/
  all : s.IsOpen g → g.told s.writer = g.taken s.cell

theorem Sole.unclaimed (h : s.Sole g) (closed : ¬ s.IsOpen g) : Unclaimed s.key g := by
  intro l y hy reaction
  by_contra open'
  have guarded : y.guarded = true := by simpa using open'
  have live : g.isLive l = true := by simp [Graph.isLive, hy, Listener.isLive, guarded]
  obtain rfl := h.only hy reaction live
  exact closed ⟨y, hy, guarded⟩

theorem Mirrors.reflected (h : s.Mirrors initial [] g) (loose : g.Loose) :
    s.Reflected initial g := by
  obtain ⟨missed, all, live⟩ := h.told
  refine ⟨h.shows, ⟨missed, all.symm⟩, fun opened => ?_⟩
  rw [all, live ((isLive_iff loose).2 opened), List.append_nil]

theorem Carries.stores (h : s.Carries initial alone g g') (ha : alone) :
    ∃ news, g'.told s.writer = g.told s.writer ++ news ∧
    g.world.page.Stores s.key (s.format.texts news) g'.world.page := by
  obtain ⟨news, told, -, stores⟩ := h.told
  exact ⟨news, told, (stores ha).2⟩

/-! ### What the page is asked for, whoever else asks -/

/-- An action that takes nothing back of what the page keeps a record of. -/
def KeepsRecord (act : ActionOver V Unit) : Prop :=
  ∀ w, act.Fits (fun w w' => w.page.deeds <:+ w'.page.deeds) (fun _ => True) w

structure Recording (m : Meaning Duty V Preview) (calls : List (Nat × ActionOver V Unit)) :
    Prop where
  bodies : ∀ b, KeepsRecord (m.body b)
  reactions : ∀ b v, KeepsRecord (m.reaction b v)
  calls : ∀ call ∈ calls, KeepsRecord call.2

theorem writeWith_keepsRecord (json : V → Except String String) (key : String) (v : V) :
    KeepsRecord (writeWith json key v) := by
  intro w
  refine ⟨?_, ?_⟩
  · dsimp only [storeWith]
    split
    · unfold Page.store
      split <;> exact List.suffix_cons _ _
    · exact List.suffix_refl _
  · dsimp only [Program.bind]
    split <;> trivial

/-- From one state to another the page was asked to store what the writer was called with, in this
order; and perhaps others asked as well. -/
def Asks (s : Stored V) (g g' : System V) : Prop :=
  s.Writes g → s.Writes g' ∧ ∃ news new, g'.told s.writer = g.told s.writer ++ news ∧
    g'.world.page.stores s.key = g.world.page.stores s.key ++ new ∧
    (s.format.texts news).Sublist (new.map Prod.fst)

theorem Asks.of_still (duty : s.Writes g → s.Writes g') (told : g'.told s.writer = g.told s.writer)
    (deeds : g.world.page.deeds <:+ g'.world.page.deeds) : s.Asks g g' := by
  obtain ⟨more, deeds⟩ := deeds
  refine fun writes => ⟨duty writes, [], (more.filterMap (Deed.stored? s.key)).reverse, ?_, ?_,
    List.nil_sublist _⟩
  · rw [told, List.append_nil]
  · rw [Page.stores, Page.stores, ← deeds, List.filterMap_append, List.reverse_append]

theorem Asks.trans {g'' : System V} (h : s.Asks g g') (h' : s.Asks g' g'') : s.Asks g g'' := by
  intro writes
  obtain ⟨writes', news, new, told, stores, sub⟩ := h writes
  obtain ⟨writes'', news', new', told', stores', sub'⟩ := h' writes'
  refine ⟨writes'', news ++ news', new ++ new', by rw [told', told, List.append_assoc],
    by rw [stores', stores, List.append_assoc], ?_⟩
  rw [Format.texts_append, List.map_append]
  exact sub.append sub'

theorem asks_course (s : Stored V) (same : V → V → Bool) : Reactive.Course same
    (fun w w' => w.page.deeds <:+ w'.page.deeds) (fun _ => True) s.Asks (fun _ _ => s.Asks) where
  refl := fun g => .of_still id rfl (List.suffix_refl _)
  trans := .trans
  tick := fun tick => .of_still (·.ages (.tick tick)) (congrFun tick.heard.2 _)
    (tick.world ▸ List.suffix_refl _)
  change := fun kept => .of_still id rfl kept
  write := by
    intro g g₁ g₂ c v ls assigned announced
    have captured : s.Asks g g₁ := by
      refine .of_still (·.ages (.assign assigned)) ?_ ?_
      · rcases Graph.assign_cases assigned with ⟨-, rfl⟩ | takes
        · rfl
        · obtain ⟨version, history⟩ := takes.history
          exact (Graph.told_cons history _).trans (List.append_nil _)
      · rcases Graph.assign_cases assigned with ⟨-, rfl⟩ | takes
        · exact List.suffix_refl _
        · obtain ⟨version, alike⟩ := takes.alike
          have world : g₁.world = g.world := alike.world
          exact world ▸ List.suffix_refl _
    have called : s.Asks g₁ g₂ := by
      clear captured assigned
      induction ls generalizing g₁ with
      | nil =>
        obtain rfl : g₁ = g₂ := announced
        exact .of_still id rfl (List.suffix_refl _)
      | cons l ls ih =>
        obtain ⟨g', first, rest⟩ := announced
        exact first.trans (ih rest)
    refine (captured.trans called).trans (.of_still (·.ages (.unpinAll ls g₂)) ?_ ?_)
    · exact Graph.told_congr (Graph.unpinAll_history ls g₂) _
    · have world := (Graph.Alike.foldl Graph.Alike.unpin ls g₂).world
      exact world ▸ List.suffix_refl _

/-- Whoever else asks, the page is asked to store what the writer is called with. -/
theorem asks_runAll {m : Meaning Duty V Preview}
    (writes : ∀ key v, m.reaction (.store key) v = writeWith s.format.write key v)
    {calls : List (Nat × ActionOver V Unit)} (recording : Recording m calls)
    (ran : runAll m calls g = some g') : s.Asks g g' := by
  refine (asks_course s m.same).runAll recording.bodies ?_ recording.calls ran
  intro doer keeping l v g g' y hy reacted
  by_cases hl : l = s.writer
  · rintro ⟨z, hz, reaction⟩
    obtain rfl := Option.some.inj (hy.symm.trans (hl ▸ hz))
    rw [reaction, react, writes] at reacted
    obtain ⟨r, ran, rfl⟩ := Option.map_eq_some_iff.1 reacted
    obtain ⟨n, written⟩ := writeWith_ends.of_run ran
    obtain ⟨new, stores, texts, -⟩ := Page.Stores.storeWith s.format s.key v g.world.page
    rw [written]
    refine ⟨⟨y, hl ▸ hy, reaction⟩, [v], new, ?_, stores, texts ▸ List.Sublist.refl _⟩
    have event : Event.told? s.writer (.called l v) = some v := if_pos hl
    rw [Graph.told_cons (g := g.record (.called l v)) rfl, Graph.told_cons (g := g) rfl, event]
    exact List.append_nil _
  · -- Another listener: what it stores under the key is asked for besides.
    have recorded : s.Asks g (g.record (.called l v)) := by
      refine .of_still id ?_ (List.suffix_refl _)
      rw [Graph.told_cons (g := g) rfl, Event.told?, if_neg hl]
      exact List.append_nil _
    exact recorded.trans ((asks_course s m.same).react keeping recording.bodies (fun b w _ =>
      recording.reactions b v w) reacted)

/-! ### The whole life of a stored value -/

theorem exists_created {m : Meaning Duty V Preview} {w : Preview}
    {before : List (Nat × ActionOver V Unit)} (ran : runAll m before { world := w } = some g)
    (created : (createWith format key default).run m.same perform g = some (s, g')) : ∃ initial,
    s.Created format key initial g g' := by
  have passed := Graph.passes_runAll ran
  have ordered : Graph.Ordered ({ world := w } : System V) := ⟨nofun, fun c => .nil⟩
  have recorded : Graph.Recorded ({ world := w } : System V) := ⟨fun _ => rfl, fun _ => rfl⟩
  obtain ⟨initial, g₁, begins, rfl, rfl⟩ := (createWith_ends format key default).of_run created
  refine ⟨initial, begins.created (passed.ages.ordered ordered) (passed.recorded recorded) fun l =>
    ?_⟩
  rw [passed.pins]
  rfl

theorem Created.shows (made : s.Created format key initial g g') : g'.Shows (s.cell, initial) := by
  have shows := made.mirrors.shows
  rwa [made.taken] at shows

/-- Whatever is done, the writer stays in front of the cell. -/
theorem Created.mirrors_runAll {g'' : System V} (made : s.Created format key initial g g')
    {m : Meaning Duty V Preview}
    (writes : ∀ key v, m.reaction (.store key) v = writeWith format.write key v)
    {calls : List (Nat × ActionOver V Unit)} (called : runAll m calls g' = some g'') :
    g''.Loose ∧ s.Mirrors initial [] g'' := by
  obtain rfl := made.written
  have carried : s.Carries initial False g' g'' :=
    made.mirrors.runAll writes nofun nofun nofun called
  exact ⟨fun l => by rw [(Graph.passes_runAll called).pins, made.loose], carried.mirrors⟩

/-- Whoever else asks, the page is asked to store the first value and then what the writer is called
with. -/
theorem Created.asks_runAll {g'' : System V} (made : s.Created format key initial g g')
    {m : Meaning Duty V Preview}
    (writes : ∀ key v, m.reaction (.store key) v = writeWith format.write key v)
    {calls : List (Nat × ActionOver V Unit)} (recording : Recording m calls)
    (called : runAll m calls g' = some g'') :
    ∃ new, g''.world.page.stores key = g.world.page.stores key ++ new ∧
      (format.texts (initial :: g''.told s.writer)).Sublist (new.map Prod.fst) := by
  obtain ⟨first, stores₁, texts, -⟩ := made.stores
  obtain rfl := made.written
  obtain ⟨-, news, new, told, stores, among⟩ :=
    Stored.asks_runAll writes recording called made.mirrors.duty
  obtain rfl := made.named
  rw [made.told, List.nil_append] at told
  refine ⟨first ++ new, by rw [stores, stores₁, List.append_assoc], ?_⟩
  rw [told, List.map_append, texts, ← List.singleton_append, Format.texts_append]
  exact among.append_left _

/-- As long as nobody else writes under the key, the page is asked to store the first value and then
what the writer is called with, and nothing more. -/
theorem Created.stores_runAll {g'' : System V} (made : s.Created format key initial g g')
    {m : Meaning Duty V Preview}
    (writes : ∀ key v, m.reaction (.store key) v = writeWith format.write key v)
    {calls : List (Nat × ActionOver V Unit)} (undisturbed : Undisturbed m key calls)
    (unclaimed : Unclaimed key g) (called : runAll m calls g' = some g'') :
    g.world.page.Stores key (format.texts (initial :: g''.told s.writer)) g''.world.page ∧
    s.Sole g'' := by
  obtain rfl := made.written
  obtain rfl := made.named
  have alone : s.Carries initial True g' g'' :=
    made.mirrors.runAll writes (fun _ => undisturbed.bodies)
    (fun _ => made.sole unclaimed) (fun _ => undisturbed.calls) called
  obtain ⟨news, told, stores⟩ := alone.stores trivial
  rw [made.told, List.nil_append] at told
  rw [told, ← List.singleton_append, Format.texts_append]
  exact ⟨made.stores.trans stores, alone.sole trivial⟩

/-- Between calls from outside nothing more is stored once the stored value has been closed. -/
theorem Mirrors.closed_runAll {m : Meaning Duty V Preview} (h : s.Mirrors initial [] g)
    (loose : g.Loose) (writes : ∀ key v, m.reaction (.store key) v = writeWith s.format.write key v)
    (closed : ¬ s.IsOpen g) {later : List (Nat × ActionOver V Unit)}
    (after : Reactive.runAll m later g = some g') :
    s.Reflected initial g' ∧ g'.told s.writer = g.told s.writer ∧
      (Undisturbed m s.key later → Unclaimed s.key g →
        g.world.page.Stores s.key [] g'.world.page) := by
  have dead : g.isLive s.writer = false := by
    rw [← Bool.not_eq_true, isLive_iff loose]
    exact closed
  have loose' : g'.Loose := fun l => by rw [(Graph.passes_runAll after).pins, loose]
  have on : s.Carries initial (Undisturbed m s.key later ∧ Unclaimed s.key g) g g' :=
    h.runAll writes (fun ha => ha.1.bodies) (fun ha => ha.2.sole loose) (fun ha => ha.1.calls) after
  obtain ⟨news, told, silent, stores⟩ := on.told
  obtain rfl := silent dead
  exact ⟨on.mirrors.reflected loose', told.trans (List.append_nil _), fun undisturbed unclaimed =>
    (stores ⟨undisturbed, unclaimed⟩).2⟩

end StoryPreview.Stored
