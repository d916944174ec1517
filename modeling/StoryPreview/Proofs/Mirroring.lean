import Mathlib.Data.List.Induction
import StoryPreview.Proofs.Duties
import StoryPreview.Proofs.OrderedMap
import StoryPreview.Proofs.Reactive.Aging
/-!
How the store follows a stored value. The listener that writes is the first one of its cell. So a
change calls it before anybody can answer the change, and each value that the cell takes is written
before the next one is taken.
-/
namespace StoryPreview
open Reactive Program

def Format.texts {V : Type} (f : Format V) (vs : List V) : List String :=
  vs.filterMap fun v => (f.write v).toOption

theorem Format.texts_append {V : Type} (f : Format V) (vs us : List V) :
    f.texts (vs ++ us) = f.texts vs ++ f.texts us :=
  List.filterMap_append

theorem Format.getLast?_texts {V : Type} {f : Format V} {vs : List V} {v : V} {text : String}
    (last : vs.getLast? = some v) (written : f.write v = .ok text) :
    (f.texts vs).getLast? = some text := by
  obtain ⟨us, rfl⟩ := List.getLast?_eq_some_iff.1 last
  have one : f.texts [v] = [text] := List.filterMap_cons_some (by rw [written]; rfl)
  rw [texts_append, one]
  exact List.getLast?_concat

/-- Signals have texts. -/
theorem Signal.Kind.format_texts (k : Signal.Kind) (vs : List Signal) :
    k.format.texts vs = vs.map fun v => v.toJson.text :=
  congrFun List.filterMap_eq_map vs

/-! ### What is stored under a key -/

def Deed.stored? (key : String) : Deed → Option (String × Bool)
  | .stored k text refused => if k = key then some (text, refused) else none
  | _ => none

namespace Page
variable {key : String} {p p' p'' : Page} {texts more : List String}

def stores (p : Page) (key : String) : List (String × Bool) :=
  (p.deeds.filterMap (Deed.stored? key)).reverse

def entryAfter (entry : Option String) (stores : List (String × Bool)) : Option String :=
  stores.foldl (fun entry s => if s.2 then entry else some s.1) entry

/-- From one state of a page to another it was asked to store these texts under a key, in this
order, and nothing else has happened to the entry. -/
def Stores (key : String) (texts : List String) (p p' : Page) : Prop :=
  ∃ new, p'.stores key = p.stores key ++ new ∧ new.map Prod.fst = texts ∧
    p'.storage.raw? key = entryAfter (p.storage.raw? key) new

namespace Stores

theorem of_eq (deeds : p'.deeds = p.deeds) (entry : p'.storage.raw? key = p.storage.raw? key) :
    Stores key [] p p' :=
  ⟨[], by rw [Page.stores, Page.stores, deeds, List.append_nil], rfl, entry⟩

theorem trans (h : Stores key texts p p') (h' : Stores key more p' p'') :
    Stores key (texts ++ more) p p'' := by
  obtain ⟨new, stores, first, entry⟩ := h
  obtain ⟨new', stores', first', entry'⟩ := h'
  refine ⟨new ++ new', by rw [stores', stores, List.append_assoc],
    by rw [List.map_append, first, first'], ?_⟩
  rw [entry', entry, entryAfter, entryAfter, entryAfter, List.foldl_append]

theorem store (p : Page) (key text : String) : Stores key [text] p (p.store key text).2 := by
  cases full : p.storage.full with
  | true =>
    refine ⟨[(text, true)], ?_, rfl, ?_⟩ <;>
      simp [Page.store, Storage.store, full, Page.stores, note, Deed.stored?, entryAfter]
  | false =>
    refine ⟨[(text, false)], ?_, rfl, ?_⟩ <;>
      simp [Page.store, Storage.store, full, Page.stores, note, Deed.stored?, entryAfter,
        Storage.put, Storage.raw?, Entries.get?_insert]

theorem store_other {other : String} (apart : other ≠ key) (p : Page) (text : String) :
    Stores key [] p (p.store other text).2 := by
  cases full : p.storage.full <;> refine ⟨[], ?_, rfl, ?_⟩ <;>
    simp [Page.store, Storage.store, full, Page.stores, note, Deed.stored?, apart, entryAfter,
      Storage.put, Storage.raw?, Entries.get?_insert]

theorem storeWith {V : Type} (f : Format V) (key : String) (v : V) (p : Page) :
    Stores key (f.texts [v]) p (Stored.storeWith f.write key v p).2 := by
  rw [Stored.storeWith, Format.texts]
  cases written : f.write v with
  | ok text =>
    rw [List.filterMap_cons_some (by rw [written]; rfl)]
    exact store p key text
  | error cause =>
    rw [List.filterMap_cons_none (by rw [written]; rfl)]
    exact .of_eq rfl rfl

theorem storeWith_other {V : Type} {other : String} (apart : other ≠ key)
    (json : V → Except String String) (v : V) (p : Page) :
    Stores key [] p (Stored.storeWith json other v p).2 := by
  rw [Stored.storeWith]
  cases json v with
  | ok text => exact store_other apart p text
  | error cause => exact .of_eq rfl rfl

/-- What has been stored last is there, if the page has refused nothing. -/
theorem entry (h : Stores key texts p p')
    (accepted : ∀ s ∈ (p'.stores key).drop (p.stores key).length, s.2 = false) :
    p'.storage.raw? key = texts.getLast?.or (p.storage.raw? key) := by
  obtain ⟨new, stores, rfl, entry⟩ := h
  rw [stores, List.drop_left] at accepted
  rw [entry]
  clear stores entry
  induction new using List.reverseRecOn with
  | nil => rfl
  | append_singleton new s ih =>
    have last : s.2 = false := accepted s (by simp)
    simp [entryAfter, List.foldl_append, last]

end Stores
end Page

namespace ActionOver
variable {V α β : Type} {key : String}

/-- An action that stores nothing under a key, and attaches no listener that does. -/
def LeavesAlone (key : String) (act : ActionOver V α) : Prop :=
  ∀ w, act.Fits (fun w w' => w.page.Stores key [] w'.page) (· ≠ Duty.store key) w

theorem LeavesAlone.bind {act : ActionOver V α} (h : act.LeavesAlone key) {f : α → ActionOver V β}
    (hf : ∀ a, (f a).LeavesAlone key) : LeavesAlone key (act >>= f) := fun w => (h w).bind hf

/-- What an action leaves alone if nobody else is to write under a key. -/
theorem fits_of_leavesAlone {alone : Prop} {act : ActionOver V α} (h : alone → act.LeavesAlone key)
    (w : Preview) :
    act.Fits (fun w w' => alone → w.page.Stores key [] w'.page) (fun b => alone →
      b ≠ Duty.store key) w := by
  by_cases ha : alone
  · simp only [ha, true_imp_iff]
    exact h ha w
  · exact act.fits_of_all (fun _ _ => (absurd · ha)) (fun _ => (absurd · ha)) w

end ActionOver

structure Reactive.Meaning.LeavesAlone {V : Type} (m : Meaning Duty V Preview) (key : String) :
    Prop where
  body : ∀ b, ActionOver.LeavesAlone key (m.body b)
  reaction : ∀ b v, b ≠ .store key → ActionOver.LeavesAlone key (m.reaction b v)

namespace Stored
variable {V : Type} {same : V → V → Bool} {perform : Doer Duty V Preview} {g g' g'' : System V}
    {key : String} {v : V}

/-! ### What writing and reading does -/

/-- Values that are stored under other keys do no harm. -/
theorem writeWith_leavesAlone {other : String} (apart : other ≠ key)
    (json : V → Except String String) (v : V) : (writeWith json other v).LeavesAlone key := by
  intro w
  refine ⟨.storeWith_other apart json v w.page, ?_⟩
  dsimp only [Program.bind]
  split <;> trivial

theorem readWith?_leavesAlone (parse : String → Except String V) (key other : String) :
    (readWith? parse other).LeavesAlone key := by
  intro w
  refine ⟨.of_eq rfl rfl, ?_⟩
  dsimp only [Program.bind]
  split
  · trivial
  · trivial
  · split <;> trivial

theorem set_leavesAlone (s : Stored V) (v : V) (key : String) : (s.set v).LeavesAlone key :=
  fun _ _ => trivial

theorem reload_leavesAlone (s : Stored V) (key : String) : s.reload.LeavesAlone key := by
  refine (readWith?_leavesAlone s.format.read key s.key).bind fun r => ?_
  cases r with
  | none => exact fun _ => trivial
  | some v => exact s.set_leavesAlone v key

theorem close_leavesAlone (s : Stored V) (key : String) : s.close.LeavesAlone key :=
  fun _ => trivial

/-! ### What stays true -/

variable {s : Stored V} {initial : V} {pending : List V} {alone : Prop} {apt : Duty → Prop}

def Writes (s : Stored V) (g : System V) : Prop := ∃ y, g.listeners[s.writer]? = some y ∧
    y.reaction = .call (.store s.key)

theorem Writes.ages (h : s.Writes g) (ages : g.Ages g') : s.Writes g' := by
  obtain ⟨y, hy, reaction⟩ := h
  obtain ⟨y', hy', kept⟩ := ages.lasting hy
  exact ⟨y', hy', kept.trans reaction⟩

/-- The writer leads the cell; as long as it lives it has been called with all values that the cell
has taken, apart from those that are pending. -/
structure Mirrors (s : Stored V) (initial : V) (pending : List V) (g : System V) : Prop extends
    g.Leads s.cell s.writer where
  duty : s.Writes g
  told : ∃ missed, g.taken s.cell = g.told s.writer ++ missed ∧
    (g.isLive s.writer = true → missed = pending)
  shows : g.Shows (s.cell, (g.taken s.cell).getLastD initial)

structure Sole (s : Stored V) (g : System V) : Prop where
  only : ∀ {l : ListenerId} {y : Listener Duty}, g.listeners[l]? = some y →
    y.reaction = .call (.store s.key) → g.isLive l = true → l = s.writer

theorem Mirrors.still (h : s.Mirrors initial pending g) (ages : g.Ages g')
    (taken : g'.taken = g.taken) (told : g'.told s.writer = g.told s.writer)
    (shows : ∀ {p : CellId × V}, g.Shows p → g'.Shows p) : s.Mirrors initial pending g' where
  toLeads := h.toLeads.ages ages
  duty := h.duty.ages ages
  told := by
    obtain ⟨missed, all, live⟩ := h.told
    exact ⟨missed, by rw [taken, told, all], fun hl => live (ages.live h.listener hl)⟩
  shows := by
    rw [taken]
    exact shows h.shows

theorem Sole.ages (h : s.Sole g) (ages : g.Ages g')
    (newcomer : ∀ {l : ListenerId} {y : Listener Duty}, g'.listeners[l]? = some y →
      g.listeners.length ≤ l → y.reaction ≠ .call (.store s.key)) : s.Sole g' := by
  refine ⟨fun {l y} hy reaction live => ?_⟩
  by_cases old : l < g.listeners.length
  · obtain ⟨y', hy', kept⟩ := ages.lasting (List.getElem?_eq_getElem old)
    obtain rfl := Option.some.inj (hy.symm.trans hy')
    exact h.only (List.getElem?_eq_getElem old) (kept.symm.trans reaction) (ages.live old live)
  · exact absurd reaction (newcomer hy (Nat.le_of_not_lt old))

theorem Sole.still (h : s.Sole g) (ages : g.Ages g')
    (length : g'.listeners.length = g.listeners.length) : s.Sole g' :=
  h.ages ages fun hy new => absurd (List.getElem?_eq_some_iff.1 hy).1
    (Nat.not_lt_of_le (length ▸ new))

/-- What runs make of a stored value. If nobody else writes under the key, what the writer is called
with is what the page is asked to store there. A writer that is dead is not called again. -/
structure Carries (s : Stored V) (initial : V) (alone : Prop) (g g' : System V) : Prop where
  ages : g.Ages g'
  mirrors : s.Mirrors initial [] g'
  told : ∃ news, g'.told s.writer = g.told s.writer ++ news ∧
    (g.isLive s.writer = false → news = []) ∧
    (alone → s.Sole g' ∧ g.world.page.Stores s.key (s.format.texts news) g'.world.page)

def Course (s : Stored V) (initial : V) (alone : Prop) (g g' : System V) : Prop :=
  s.Mirrors initial [] g → (alone → s.Sole g) → s.Carries initial alone g g'

def Harmless (s : Stored V) (g : System V) (l : ListenerId) : Prop :=
  ∃ y, g.listeners[l]? = some y ∧ y.reaction ≠ .call (.store s.key)

theorem Harmless.ages {l : ListenerId} (h : s.Harmless g l) (ages : g.Ages g') :
    s.Harmless g' l := by
  obtain ⟨y, hy, harmless⟩ := h
  obtain ⟨y', hy', kept⟩ := ages.lasting hy
  exact ⟨y', hy', kept ▸ harmless⟩

structure Call (s : Stored V) (initial : V) (alone : Prop) (l : ListenerId) (v : V)
    (g g' : System V) : Prop where
  writer : l = s.writer → g.isLive s.writer = true → s.Mirrors initial [v] g → (alone → s.Sole g) →
    s.Carries initial alone g g'
  other : l ≠ s.writer → (alone → s.Harmless g l) → s.Course initial alone g g'

namespace Carries

theorem trans (h : s.Carries initial alone g g') (h' : s.Carries initial alone g' g'')
    (listener : s.writer < g.listeners.length) :
    s.Carries initial alone g g'' where
  ages := h.ages.trans h'.ages
  mirrors := h'.mirrors
  told := by
    obtain ⟨news, told, dead, stores⟩ := h.told
    obtain ⟨more, told', dead', stores'⟩ := h'.told
    refine ⟨news ++ more, by rw [told', told, List.append_assoc], fun gone => ?_, fun ha => ?_⟩
    · have still : g'.isLive s.writer = false :=
        Bool.eq_false_iff.2 fun live => nomatch gone.symm.trans (h.ages.live listener live)
      rw [dead gone, dead' still]
      rfl
    · rw [Format.texts_append]
      exact ⟨(stores' ha).1, (stores ha).2.trans (stores' ha).2⟩

/-- Something happens that the writer is not told. -/
theorem of_still (ages : g.Ages g') (mirrors : s.Mirrors initial [] g')
    (told : g'.told s.writer = g.told s.writer)
    (stores : alone → s.Sole g' ∧ g.world.page.Stores s.key [] g'.world.page) :
    s.Carries initial alone g g' where
  ages := ages
  mirrors := mirrors
  told := ⟨[], by rw [told, List.append_nil], fun _ => rfl, stores⟩

end Carries

theorem Carries.sole (h : s.Carries initial alone g g') (ha : alone) : s.Sole g' := by
  obtain ⟨news, -, -, stores⟩ := h.told
  exact (stores ha).1

theorem Mirrors.tick (h : s.Mirrors initial [] g) (sole : alone → s.Sole g)
    (tick : g.Tick (fun b => alone → b ≠ .store s.key) g') : s.Carries initial alone g g' := by
  have ages : g.Ages g' := .tick tick
  obtain ⟨taken, told⟩ := tick.heard
  refine .of_still ages (h.still ages taken (congrFun told _) tick.shows)
    (congrFun told _) fun ha => ?_
  refine ⟨(sole ha).ages ages fun hy new => ?_, .of_eq (by rw [tick.world]) (by rw [tick.world])⟩
  rcases tick.newcomer hy new with ⟨e, epoch, hr⟩ | ⟨b, fit, hr⟩
  · simp [hr]
  · simp [hr, fit ha]

/-! ### Writes -/

section Write
variable {c : CellId} {ls : List ListenerId}

/-- A value that the cell takes is pending, if the writer is alive. -/
theorem Mirrors.takes (h : s.Mirrors initial [] g) (takes : g.Takes c v ls g')
    (captured : c = s.cell → g.isLive s.writer = true → pending = [v])
    (other : c ≠ s.cell → pending = []) :
    s.Mirrors initial pending g' := by
  have ages : g.Ages g' := .takes takes
  obtain ⟨version, history⟩ := takes.history
  obtain ⟨version', alike⟩ := takes.alike
  have told : g'.told s.writer = g.told s.writer :=
    (Graph.told_cons history _).trans (List.append_nil _)
  have taken := Graph.taken_cons history s.cell
  have cell : g'.cells[s.cell]? = if c = s.cell then some ⟨v, version', ls⟩
      else g.cells[s.cell]? := by
    rw [alike.cells, Graph.withCell_cell takes.known]
  obtain ⟨missed, all, live⟩ := h.told
  refine ⟨h.toLeads.ages ages, h.duty.ages ages, ?_, ?_⟩
  · by_cases hc : c = s.cell
    · refine ⟨missed ++ [v], by simp [taken, told, all, Event.taken?, hc], fun hl => ?_⟩
      have alive := ages.live h.listener hl
      rw [live alive, captured hc alive]
      rfl
    · refine ⟨missed, by simp [taken, told, all, Event.taken?, hc], fun hl => ?_⟩
      rw [live (ages.live h.listener hl), other hc]
  · rw [Graph.Shows, cell, taken]
    by_cases hc : c = s.cell
    · simp [hc, Event.taken?]
    · have still : Event.taken? s.cell (Event.changed c v version ls.length) = none := if_neg hc
      rw [if_neg hc, still]
      exact (List.append_nil (g.taken s.cell)).symm ▸ h.shows

/-- An announcement to listeners other than the writer. -/
theorem Mirrors.announces (h : s.Mirrors initial [] g) (sole : alone → s.Sole g)
    (announced : Announces (s.Call initial alone) v ls g g') (others : ∀ l ∈ ls, l ≠ s.writer)
    (harmless : alone → ∀ l ∈ ls, s.Harmless g l) : s.Carries initial alone g g' := by
  induction ls generalizing g with
  | nil =>
    obtain rfl : g = g' := announced
    exact .of_still (.refl g) h rfl fun ha => ⟨sole ha, .of_eq rfl rfl⟩
  | cons l ls ih =>
    obtain ⟨g₁, called, rest⟩ := announced
    have first := called.other (others l List.mem_cons_self) (fun ha =>
      harmless ha l List.mem_cons_self) h sole
    refine first.trans (ih first.mirrors first.sole rest (fun k hk =>
      others k (List.mem_cons_of_mem l hk)) ?_) h.listener
    exact fun ha k hk => (harmless ha k (List.mem_cons_of_mem l hk)).ages first.ages

theorem Sole.harmless (h : s.Sole g) {l : ListenerId} (captured : l ∈ g.liveSlots c)
    (other : l ≠ s.writer) : s.Harmless g l := by
  have live := (Graph.mem_liveSlots.1 captured).2
  cases hy : g.listeners[l]? with
  | none => simp [Graph.isLive, hy] at live
  | some y => exact ⟨y, hy, fun reaction => other (h.only hy reaction live)⟩

/-- Those who have been captured for a change are called, the writer before anybody can answer the
change. -/
theorem Mirrors.takes_announces (h : s.Mirrors initial [] g) (sole : alone → s.Sole g)
    (takes : g.Takes c v ls g') (announced : Announces (s.Call initial alone) v ls g' g'') :
    s.Carries initial alone g' g'' := by
  have ages : g.Ages g' := .takes takes
  obtain ⟨version, alike⟩ := takes.alike
  have length : g'.listeners.length = g.listeners.length :=
    Nat.le_antisymm alike.symm.length_le alike.length_le
  have sole' (ha : alone) : s.Sole g' := (sole ha).still ages length
  have harmless (ha : alone) (l : ListenerId) (hl : l ∈ ls) (other : l ≠ s.writer) :
      s.Harmless g' l :=
    ((sole ha).harmless (takes.live ▸ hl) other).ages ages
  by_cases captured : c = s.cell ∧ g.isLive s.writer = true
  · -- The writer is told what is pending; after that nothing is, and what the others do leaves it
    -- so.
    obtain ⟨rfl, live⟩ := captured
    obtain ⟨rest, order, once⟩ := h.liveSlots live
    obtain rfl : ls = s.writer :: rest := takes.live.trans order
    have alive : g'.isLive s.writer = true := by
      simp [Graph.isLive_eq, takes.pins h.listener]
    obtain ⟨g₁, called, others⟩ := announced
    have told := called.writer rfl alive (h.takes takes (fun _ _ => rfl) (absurd rfl)) sole'
    have apart {l : ListenerId} (hl : l ∈ rest) : l ≠ s.writer := fun hw => once (hw ▸ hl)
    refine told.trans (told.mirrors.announces told.sole others (fun l => apart) fun ha l hl => ?_)
      (length ▸ h.listener)
    exact (harmless ha l (List.mem_cons_of_mem _ hl) (apart hl)).ages told.ages
  · -- Another cell has changed, or the writer is dead: then nothing is pending, and nobody captured
    -- is the writer.
    have out : s.writer ∉ ls := by
      rw [takes.live]
      refine h.not_mem_liveSlots ?_
      rw [← Bool.not_eq_true]
      exact not_and_or.1 captured
    have apart (l : ListenerId) (hl : l ∈ ls) : l ≠ s.writer := fun hw => out (hw ▸ hl)
    refine (h.takes takes (fun hc live => absurd ⟨hc, live⟩ captured) fun _ => rfl).announces
      sole' announced apart ?_
    exact fun ha l hl => harmless ha l hl (apart l hl)

theorem Mirrors.unpinAll (h : s.Mirrors initial [] g) (sole : alone → s.Sole g)
    (ls : List ListenerId) : s.Carries initial alone g (ls.foldl Graph.unpin g) := by
  have settled := Graph.Alike.foldl Graph.Alike.unpin ls g
  have heard := Graph.unpinAll_history ls g
  have told : (ls.foldl Graph.unpin g).told s.writer = g.told s.writer := Graph.told_congr heard _
  have shows {p : CellId × V} (shows : g.Shows p) : (ls.foldl Graph.unpin g).Shows p :=
    (settled.steady.value p.1).trans shows
  have taken : (ls.foldl Graph.unpin g).taken = g.taken := funext (Graph.taken_congr heard)
  refine .of_still (.unpinAll ls g) (h.still (.unpinAll ls g) taken told shows) told fun ha => ?_
  refine ⟨(sole ha).still (.unpinAll ls g) ?_,
    .of_eq (by rw [settled.world]) (by rw [settled.world])⟩
  exact Nat.le_antisymm settled.symm.length_le settled.length_le

/-- A write is announced, and what it has captured is let go. -/
theorem Mirrors.assigned (h : s.Mirrors initial [] g) (sole : alone → s.Sole g)
    (assigned : g.assign same c v = some (ls, g'))
    (announced : Announces (s.Call initial alone) v ls g' g'') :
    s.Carries initial alone g (ls.foldl Graph.unpin g'') := by
  rcases Graph.assign_cases assigned with ⟨rfl, rfl⟩ | takes
  · obtain rfl : g' = g'' := announced
    exact .of_still (.refl g') h rfl fun ha => ⟨sole ha, .of_eq rfl rfl⟩
  have ages : g.Ages g' := .takes takes
  obtain ⟨version, history⟩ := takes.history
  obtain ⟨version', alike⟩ := takes.alike
  have told := h.takes_announces sole takes announced
  have whole :=
    told.trans (told.mirrors.unpinAll told.sole ls) (Nat.lt_of_lt_of_le h.listener alike.length_le)
  obtain ⟨news, told, dead, stores⟩ := whole.told
  have before : g'.told s.writer = g.told s.writer :=
    (Graph.told_cons history _).trans (List.append_nil _)
  refine ⟨ages.trans whole.ages, whole.mirrors, news, by rw [told, before], fun gone => ?_,
    fun ha => ?_⟩
  · exact dead (Bool.eq_false_iff.2 fun live => nomatch gone.symm.trans (ages.live h.listener live))
  · rw [← show g'.world = g.world from alike.world]
    exact stores ha

end Write

/-! ### Runs -/

section Runs
variable {m : Meaning Duty V Preview}

theorem course (s : Stored V) (initial : V) (alone : Prop) : Reactive.Course same
    (fun w w' => alone → w.page.Stores s.key [] w'.page) (fun b => alone → b ≠ .store s.key)
    (s.Course initial alone) (s.Call initial alone) where
  refl := fun g h sole => .of_still (.refl g) h rfl fun ha => ⟨sole ha, .of_eq rfl rfl⟩
  trans := fun first second h sole =>
    have carried := first h sole
    carried.trans (second carried.mirrors carried.sole) h.listener
  tick := fun tick h sole => h.tick sole tick
  change := by
    intro g w allowed h sole
    have ages : g.Ages (g.withWorld w) := .of_parts ⟨rfl, rfl, rfl⟩
    exact .of_still ages (h.still ages rfl rfl id) rfl fun ha =>
      ⟨(sole ha).still ages rfl, allowed ha⟩
  write := fun assigned announced h sole => h.assigned sole assigned announced

/-- When the writer is called, the page is asked to store the value that is pending. -/
theorem Mirrors.called (h : s.Mirrors initial [v] g) (sole : alone → s.Sole g)
    (live : g.isLive s.writer = true) {r : Unit × System V}
    (ran : (writeWith s.format.write s.key v).run same perform (g.record (.called s.writer v)) =
      some r) :
    s.Carries initial alone g r.2 := by
  obtain ⟨n, written⟩ := writeWith_ends.of_run ran
  rw [written]
  generalize hg : Graph.recordAll ((g.record (.called s.writer v)).withWorld _) [n] = g'
  have ages : g.Ages g' := hg ▸ .of_parts ⟨rfl, rfl, rfl⟩
  have taken : g'.taken = g.taken := hg ▸ rfl
  have told : g'.told s.writer = g.told s.writer ++ [v] := by
    have event : Event.told? s.writer (.called s.writer v) = some v := if_pos rfl
    rw [← hg, Graph.told_cons (g := g.record (.called s.writer v)) rfl,
      Graph.told_cons (g := g) rfl, event]
    exact List.append_nil _
  have page : g'.world.page = (storeWith s.format.write s.key v g.world.page).2 := hg ▸ rfl
  obtain ⟨missed, all, pending⟩ := h.told
  refine ⟨ages, ⟨h.toLeads.ages ages, ?_, ?_, ?_⟩, [v], told, ?_, fun ha => ?_⟩
  · exact hg ▸ h.duty
  · refine ⟨[], ?_, fun _ => rfl⟩
    rw [taken, told, all, pending live, List.append_nil]
  · rw [taken]
    exact hg ▸ h.shows
  · intro dead
    cases live.symm.trans dead
  · refine ⟨(sole ha).still ages (hg ▸ rfl), ?_⟩
    rw [page]
    exact .storeWith s.format s.key v g.world.page

variable (writes : ∀ key v, m.reaction (.store key) v = writeWith s.format.write key v)
    (leaves : alone → m.LeavesAlone s.key)
include writes leaves

theorem call_of_react {doer : Doer Duty V Preview}
    (keeping : Keeping (s.Course initial alone) (s.Call initial alone) doer)
    {l : ListenerId} {y : Listener Duty} (hy : g.listeners[l]? = some y)
    (reacted : react m doer v (g.record (.called l v)) y.reaction = some g') :
    s.Call initial alone l v g g' := by
  have bodies (b : Duty) (w : Preview) :=
    ActionOver.fits_of_leavesAlone (fun ha => (leaves ha).body b) w
  constructor
  case writer =>
    rintro rfl live h sole
    obtain ⟨z, hz, reaction⟩ := h.duty
    obtain rfl := Option.some.inj (hy.symm.trans hz)
    rw [reaction, react, writes] at reacted
    obtain ⟨r, ran, rfl⟩ := Option.map_eq_some_iff.1 reacted
    exact h.called sole live ran
  case other =>
    -- The call is put on record first; what the listener then does may write to any cell, this one
    -- too.
    intro other harmless h sole
    have ages : g.Ages (g.record (.called l v)) := .of_parts ⟨rfl, rfl, rfl⟩
    have told : (g.record (.called l v)).told s.writer = g.told s.writer := by
      rw [Graph.told_cons (g := g) rfl, Event.told?, if_neg other]
      exact List.append_nil _
    have recorded : s.Carries initial alone g (g.record (.called l v)) :=
      .of_still ages (h.still ages rfl told id) told fun ha =>
        ⟨(sole ha).still ages rfl, .of_eq rfl rfl⟩
    refine recorded.trans ((course s initial alone).react keeping bodies (fun b w reaction => ?_)
      reacted recorded.mirrors recorded.sole) h.listener
    refine ActionOver.fits_of_leavesAlone (fun ha => (leaves ha).reaction b v ?_) w
    rintro rfl
    obtain ⟨z, hz, harmless⟩ := harmless ha
    obtain rfl := Option.some.inj (hy.symm.trans hz)
    exact harmless reaction

/-- Whatever is run from outside, one after the other, carries a stored value on. -/
theorem Mirrors.runAll {calls : List (Nat × ActionOver V Unit)} (h : s.Mirrors initial [] g)
    (sole : alone → s.Sole g) (others : alone → ∀ call ∈ calls, call.2.LeavesAlone s.key)
    (ran : runAll m calls g = some g') : s.Carries initial alone g g' := by
  refine (course s initial alone).runAll
    (fun b w => ActionOver.fits_of_leavesAlone (fun ha => (leaves ha).body b) w)
    (fun {doer} keeping {l v g g' y} hy reacted => call_of_react writes leaves keeping hy reacted)
      (fun call hc w => ?_) ran
    h sole
  exact ActionOver.fits_of_leavesAlone (fun ha => others ha call hc) w

end Runs
end Stored
end StoryPreview
