import StoryPreview.Proofs.Reactive.Retaining
import StoryPreview.Proofs.Reflecting
/-!
Stored values that are closed. Where a stored value is closed between calls from outside, nothing
more is stored. Where it is closed inside a call, an announcement that has captured the writer may
be under way; then the writer is captured by changes of the cell until the announcement ends.
-/
namespace StoryPreview.Stored
open Reactive Program
variable {V : Type} {g g' g₁ g₂ g₃ : System V} {format : Format V} {key : String} {default : V}
    {s : Stored V} {initial : V}
variable {m : Meaning Duty V Preview} {keeps : Preview → ListenerId → Prop} {depth : Nat}
    {w : Preview}
variable {before calls : List (Nat × ActionOver V Unit)} {log news : List (Mark V)}

/-- Programs that give up only what they were given; those that are run from outside were given the
stored value. -/
structure Owned (m : Meaning Duty V Preview) (keeps : Preview → ListenerId → Prop) (s : Stored V)
    (w : Preview) (before : List (Nat × ActionOver V Unit)) (creation : ActionOver V (Stored V))
    (calls : List (Nat × ActionOver V Unit)) : Prop where
  meaning : m.Honest keeps
  empty : ∀ l, ¬ keeps w l
  before : ∀ call ∈ before, call.2.HonestAlone keeps
  creation : creation.HonestAlone keeps
  calls : ∀ call ∈ calls, call.2.Honest keeps (· = s.writer)

abbrev KeepsBeside (keeps : Preview → ListenerId → Prop) : Prop :=
  ∀ (w : Preview) (p : Page) l, keeps { w with page := p } l → keeps w l

theorem writeWith_honest (beside : KeepsBeside keeps) (json : V → Except String String)
    (key : String) (v : V) : (writeWith json key v).HonestAlone keeps := by
  intro w
  refine ⟨fun w' l hk => .inl (beside w' _ l hk), ?_⟩
  dsimp only [Program.bind]
  split <;> trivial

theorem readWith?_honest (beside : KeepsBeside keeps) (parse : String → Except String V)
    (key : String) : (readWith? parse key).HonestAlone keeps := by
  intro w
  refine ⟨fun w' l hk => .inl (beside w' _ l hk), ?_⟩
  dsimp only [Program.bind]
  split
  · trivial
  · trivial
  · split <;> trivial

theorem createWith_honest (beside : KeepsBeside keeps) (format : Format V) (key : String)
    (default : V) : (createWith format key default).HonestAlone keeps := by
  refine (readWith?_honest beside format.read key).bind fun found => ?_
  exact (writeWith_honest beside format.write key _).bind fun _ c l => trivial

theorem blank_of_empty (empty : ∀ l, ¬ keeps w l) :
    Graph.Blank keeps ({ world := w } : System V) where
  effects := rfl
  scopes := rfl
  kept := fun hl => absurd hl (empty _)
  listeners := rfl
  slots := fun _ => rfl

structure Logs (m : Meaning Duty V Preview) (w : Preview) (before : List (Nat × ActionOver V Unit))
    (creation : ActionOver V (Stored V)) (depth : Nat) (s : Stored V)
    (calls : List (Nat × ActionOver V Unit)) (g₁ g₂ g₃ : System V)
    (log₁ log₂ news : List (Mark V)) : Prop where
  before : logAll m before ⟨{ world := w }, []⟩ = some ⟨g₁, log₁⟩
  creation : creation.log m.same (performLogged m depth) ⟨g₁, log₁⟩ = some (s, ⟨g₂, log₂⟩)
  calls : logAll m calls ⟨g₂, log₂⟩ = some ⟨g₃, log₂ ++ news⟩

theorem Created.announced (made : s.Created format key initial g₁ g₂)
    (reflected : s.Reflected initial g₃)
    (owned : Owned m keeps s w before (createWith format key default) calls)
    (ran : runAll m before { world := w } = some g₁)
    (created : (createWith format key default).run m.same (Reactive.perform m depth) g₁ =
      some (s, g₂))
    (called : runAll m calls g₂ = some g₃) : ∃ log₁ log₂ news,
      Logs m w before (createWith format key default) depth s calls g₁ g₂ g₃ log₁ log₂ news ∧
      Announced s.cell s.writer g₃ log₂ news := by
  have start := (blank_of_empty (V := V) owned.empty).rested
  have recalls : Logged.Recalls ⟨({ world := w } : System V), []⟩ := ⟨fun _ => rfl, fun _ => rfl⟩
  -- The stages of the run, each with its log.
  obtain ⟨log₁, logged₁⟩ := exists_log (s := ⟨{ world := w }, []⟩) ran
  have first := Logged.completes_logAll owned.meaning owned.before False.elim logged₁ start.kept
  have rested₁ := start.completes first
  obtain ⟨log₂, logged₂⟩ := Program.exists_log (s := ⟨g₁, log₁⟩) created
  have second := Logged.Serves.alone (Logged.serves_performLogged owned.meaning depth)
    owned.creation logged₂ rested₁.kept
  have rested₂ := rested₁.completes second
  obtain ⟨log₃, logged₃⟩ := exists_log (s := ⟨g₂, log₂⟩) called
  have plain {l : ListenerId} (hl : l = s.writer) : g₂.Plain l := by
    obtain ⟨y, hy, reaction⟩ := made.mirrors.duty
    exact ⟨y, .store s.key, hl ▸ hy, reaction⟩
  have third := Logged.completes_logAll owned.meaning owned.calls plain logged₃ rested₂.kept
  obtain ⟨news, rfl, announced⟩ := rested₂.announced third
    (Logged.Moves.keep Logged.Move.recalls (first.moves.trans second.moves) recalls)
    made.mirrors.toLeads made.attends made.taken made.told reflected.order
  exact ⟨log₁, log₂, news, ⟨logged₁, logged₂, logged₃⟩, announced⟩

/-- The page is asked to store the first value of a stored value, and then each value for which the
writer is called, if it has a text: as long as the stored value is open, each value that the cell
takes, once and in order. So if the page refuses nothing and nobody else writes there, the text of
the current value is under the key. A change captures the writer unless the stored value has been
closed and no announcement that has captured the writer is under way; the cell lives on. -/
theorem store_mirrors_value
    (writes : ∀ key v, m.reaction (.store key) v = writeWith format.write key v)
    (ran : runAll m before { world := w } = some g₁)
    (created : (createWith format key default).run m.same (Reactive.perform m depth) g₁ =
      some (s, g₂))
    (called : runAll m calls g₂ = some g₃) : ∃ initial, g₂.Shows (s.cell, initial) ∧
    s.Reflected initial g₃ ∧
      (Recording m calls → ∃ new, g₃.world.page.stores key = g₁.world.page.stores key ++ new ∧
        (format.texts (initial :: g₃.told s.writer)).Sublist (new.map Prod.fst)) ∧
      (Undisturbed m key calls → Unclaimed key g₁ →
        g₁.world.page.Stores key (format.texts (initial :: g₃.told s.writer)) g₃.world.page ∧
        (s.IsOpen g₃ → (∀ x ∈ (g₃.world.page.stores key).drop (g₁.world.page.stores key).length,
          x.2 = false) → ∃ v, g₃.Shows (s.cell, v) ∧
            ∀ text, format.write v = .ok text → g₃.world.page.storage.raw? key = some text) ∧
        (¬ s.IsOpen g₃ → Unclaimed key g₃)) ∧
      (∀ keeps, Owned m keeps s w before (createWith format key default) calls → ∃ log₁ log₂ news,
        Logs m w before (createWith format key default) depth s calls g₁ g₂ g₃ log₁ log₂ news ∧
        Announced s.cell s.writer g₃ log₂ news) ∧
      (¬ s.IsOpen g₃ → ∀ later g₄, runAll m later g₃ = some g₄ →
        s.Reflected initial g₄ ∧ g₄.told s.writer = g₃.told s.writer ∧
        (Undisturbed m key later → Unclaimed key g₃ →
          g₃.world.page.Stores key [] g₄.world.page)) := by
  obtain ⟨initial, made⟩ := exists_created ran created
  obtain ⟨loose, mirrors⟩ := made.mirrors_runAll writes called
  have reflected := mirrors.reflected loose
  refine ⟨initial, made.shows, reflected, fun recording => made.asks_runAll writes recording called,
    fun undisturbed unclaimed => ?_,
    fun keeps owned => made.announced reflected owned ran created called,
    fun closed later g₄ after => ?_⟩
  · obtain ⟨all, sole⟩ := made.stores_runAll writes undisturbed unclaimed called
    refine ⟨all, fun opened accepted => ⟨_, reflected.shows, fun text written => ?_⟩,
      made.named ▸ sole.unclaimed⟩
    have last : (initial :: g₃.told s.writer).getLast? =
        some ((g₃.taken s.cell).getLastD initial) := by
      rw [reflected.all opened, List.getLast?_cons, List.getLastD_eq_getLast?]
    rw [all.entry accepted, Format.getLast?_texts last written]
    rfl
  · obtain rfl := made.named
    obtain rfl := made.written
    exact mirrors.closed_runAll loose writes closed after

/-! A stored value is closed while a change is announced, and there are values without a text. -/

def optional : Format (Option String) where
  write
    | some text => .ok text
    | none => .error "no text"
  read text := .ok (some text)

def fade (c : CellId) (v : Option String) : ActionOver (Option String) Unit :=
  if v = some "last" then
    .ask fun w => if w.status = .bound then .release 0 (.write c (some "later") (.done ()))
      else .done ()
  else .done ()

def fading : Meaning Duty (Option String) Preview where
  same v u := v == u
  body _ := .done ()
  reaction
    | .store key, v => writeWith optional.write key v
    | .watch _ _ c _, v => fade c v
    | _, _ => .done ()

def Keeper (w : Preview) (l : ListenerId) : Prop := w.status = .bound ∧ l = 0

def fadingCalls (s : Stored (Option String)) : List (Nat × ActionOver (Option String) Unit) :=
  [(8, Action.update fun w => { w with status := .bound }),
    (8, .subscribe s.cell (.watch "closing" .theme s.cell s.cell) fun _ => .done ()),
    (8, s.set (some "first")), (8, s.set none), (8, s.set (some "last")), (8, s.set (some "lost"))]

/-- What the first three calls come to, and all of them: the last change is not told to the
writer. -/
def Faded (s : Stored (Option String)) (g g' : System (Option String)) : Prop :=
  s.writer = 0 ∧ g.listeners[s.writer]?.map Listener.guarded = some true ∧
    g'.listeners[s.writer]?.map Listener.guarded = some false ∧ g.taken s.cell = [some "first"] ∧
    g'.taken s.cell = [some "first", none, some "last", some "later", some "lost"] ∧
    g'.told s.writer = [some "first", none, some "last", some "later"] ∧
    g.world.page.stores "note" = [("start", false), ("first", false)] ∧
    g'.world.page.stores "note" = [("start", false), ("first", false), ("last", false),
      ("later", false)]

instance (s : Stored (Option String)) (g g' : System (Option String)) : Decidable (Faded s g g') :=
  inferInstanceAs (Decidable (_ ∧ _ ∧ _ ∧ _ ∧ _ ∧ _ ∧ _ ∧ _))

theorem fading_run :
    ((createWith optional "note" (some "start")).run fading.same (Reactive.perform fading 8)
      { world := {} }).bind (fun r => (runAll fading ((fadingCalls r.1).take 3) r.2).bind fun g =>
      (runAll fading (fadingCalls r.1) r.2).bind fun g' =>
        (runAll fading [(8, r.1.set none)] g').map fun _ => decide (Faded r.1 g g')) =
      some true := by
  decide +kernel

theorem fade_fits (allowed : Preview → Preview → Prop) (apt : Duty → Prop) (c : CellId)
    (v : Option String) (w : Preview) : (fade c v).Fits allowed apt w := by
  unfold fade
  split
  · dsimp only [Fits]
    split
    · exact fun _ => trivial
    · trivial
  · trivial

theorem fade_honest (c : CellId) (v : Option String) : (fade c v).HonestAlone Keeper := by
  unfold fade
  split
  · intro w
    dsimp only
    split
    · rename_i bound
      exact ⟨.inl ⟨bound, rfl⟩, trivial⟩
    · trivial
  · trivial

theorem fading_leavesAlone (key : String) : fading.LeavesAlone key where
  body _ _ := trivial
  reaction b v apart w := by
    cases b with
    | store other => exact writeWith_leavesAlone (fun h => apart (congrArg _ h)) _ v w
    | followUrl c => trivial
    | followAddress r => trivial
    | watch name view c d => exact fade_fits _ _ c v w

theorem fading_undisturbed (s : Stored (Option String)) (key : String) :
    Undisturbed fading key (fadingCalls s) where
  bodies := fading_leavesAlone key
  calls := by
    simp only [fadingCalls, List.forall_mem_cons]
    have set (v : Option String) := s.set_leavesAlone v key
    exact ⟨fun _ => ⟨.of_eq rfl rfl, trivial⟩, fun _ => ⟨nofun, fun _ => trivial⟩, set _, set _,
      set _, set _, nofun⟩

theorem fading_recording (s : Stored (Option String)) : Recording fading (fadingCalls s) where
  bodies _ _ := trivial
  reactions b v w := by
    cases b with
    | store key => exact writeWith_keepsRecord _ key v w
    | followUrl c => trivial
    | followAddress r => trivial
    | watch name view c d => exact fade_fits _ _ c v w
  calls := by
    simp only [fadingCalls, List.forall_mem_cons]
    have set (v : Option String) : KeepsRecord (s.set v) := fun _ _ => trivial
    exact ⟨fun _ => ⟨List.suffix_refl _, trivial⟩, fun _ => ⟨trivial, fun _ => trivial⟩, set _,
      set _, set _, set _, nofun⟩

theorem fading_owned {s : Stored (Option String)} (first : s.writer = 0) :
    Owned fading Keeper s {} [] (createWith optional "note" (some "start")) (fadingCalls s) where
  meaning :=
    { body := fun _ => trivial
      reaction := by
        intro b v
        cases b with
        | store key => exact writeWith_honest (fun _ _ _ hk => hk) _ key v
        | followUrl c => trivial
        | followAddress r => trivial
        | watch name view c d => exact fade_honest c v }
  empty := fun l hk => nomatch hk.1
  before := nofun
  creation := createWith_honest (fun _ _ _ hk => hk) optional "note" (some "start")
  calls := by
    simp only [fadingCalls, List.forall_mem_cons]
    have set (v : Option String) : (s.set v).Honest Keeper (· = s.writer) := trivial
    exact ⟨⟨fun _ _ hk => .inr (hk.2.trans first.symm), trivial⟩, fun _ => trivial, set _, set _,
      set _, set _, nofun⟩

/-- What is written after the end is stored once more, since the announcement under way has captured
the writer; what is written after that announcement is not. -/
theorem store_mirrors_value_fading : ∃ s g₂ g g₃ g₄ log₁ log₂ news,
    (createWith optional "note" (some "start")).run fading.same
      (Reactive.perform fading 8) { world := {} } = some (s, g₂) ∧
    runAll fading ((fadingCalls s).take 3) g₂ = some g ∧ s.IsOpen g ∧
    g.world.page.storage.raw? "note" = some "first" ∧
    runAll fading (fadingCalls s) g₂ = some g₃ ∧ ¬ s.IsOpen g₃ ∧ Recording fading (fadingCalls s) ∧
    Undisturbed fading "note" (fadingCalls s) ∧
    Owned fading Keeper s {} [] (createWith optional "note" (some "start")) (fadingCalls s) ∧
    Logs fading {} [] (createWith optional "note" (some "start")) 8 s (fadingCalls s)
      { world := {} } g₂ g₃ log₁ log₂ news ∧
    Announced s.cell s.writer g₃ log₂ news ∧
    news.flatMap (Mark.brings s.writer) = [some "first", none, some "last", some "later"] ∧
    given s.cell news = [some "first", none, some "last", some "later", some "lost"] ∧
    Page.Stores "note" ["start", "first", "last", "later"] {} g₃.world.page ∧
    runAll fading [(8, s.set none)] g₃ = some g₄ ∧
    g₃.world.page.Stores "note" [] g₄.world.page := by
  obtain ⟨⟨s, g₂⟩, created, rest⟩ := Option.bind_eq_some_iff.1 fading_run
  obtain ⟨g, opened, rest⟩ := Option.bind_eq_some_iff.1 rest
  obtain ⟨g₃, called, rest⟩ := Option.bind_eq_some_iff.1 rest
  obtain ⟨g₄, later, seen⟩ := Option.map_eq_some_iff.1 rest
  obtain ⟨first, isOpen, guarded, early, taken, told, stores, stores₃⟩ : Faded s g g₃ :=
    of_decide_eq_true seen
  obtain ⟨y, hy, alive⟩ := Option.map_eq_some_iff.1 isOpen
  have closed : ¬ s.IsOpen g₃ := by
    rintro ⟨y, hy, alive⟩
    simp [hy, alive] at guarded
  have undisturbed := fading_undisturbed s "note"
  have start :
      runAll fading [] { world := {} } = some ({ world := {} } : System (Option String)) := rfl
  -- While the stored value is open, the current value is under the key.
  obtain ⟨_, -, reflected, -, kept, -, -⟩ :=
    store_mirrors_value (fun _ _ => rfl) start created opened
  obtain ⟨-, entry, -⟩ :=
    kept ⟨undisturbed.bodies, fun call hc => undisturbed.calls call (List.mem_of_mem_take hc)⟩ nofun
  obtain ⟨v, shows, raw⟩ := entry ⟨y, hy, alive⟩ (by rw [stores]; decide)
  have current := reflected.shows
  rw [early] at current
  obtain rfl : v = some "first" := Option.some.inj (shows.symm.trans current)
  -- All the calls.
  obtain ⟨initial, -, -, -, all, announced, silent⟩ :=
    store_mirrors_value (fun _ _ => rfl) start created called
  obtain ⟨⟨new, added, -, entry⟩, -, unclaimed⟩ := all undisturbed nofun
  obtain ⟨log₁, log₂, news, logs, hears⟩ := announced Keeper (fading_owned first)
  obtain ⟨-, -, nothing⟩ := silent closed _ g₄ later
  have quiet : Undisturbed fading "note" [(8, s.set none)] :=
    ⟨fading_leavesAlone "note", List.forall_mem_singleton.2 (s.set_leavesAlone none "note")⟩
  obtain rfl : new = _ := added.symm.trans stores₃
  exact ⟨s, g₂, g, g₃, g₄, log₁, log₂, news, created, opened, ⟨y, hy, alive⟩, raw _ rfl, called,
    closed, fading_recording s, undisturbed, fading_owned first, logs, hears,
    hears.told.symm.trans told, hears.taken.symm.trans taken, ⟨_, added, rfl, entry⟩, later,
    nothing quiet (unclaimed closed)⟩

end StoryPreview.Stored
