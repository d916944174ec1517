import StoryPreview.Proofs.Creating
import StoryPreview.Proofs.Kinds
/-!
Stored values that are created and reloaded, again and again, while reads and writes of the store
fail. A value that is read is written as the same value. Only where reading fails and writing does
not, a default takes the place of what was there.
-/
namespace StoryPreview
open Reactive Program

namespace Page
variable {p : Page} {kind : Signal.Kind} {key : String} {v : Signal}

def Stocks (p : Page) (kind : Signal.Kind) (key : String) (v : Signal) : Prop :=
  ∃ text, p.storage.raw? key = some text ∧ kind.parse text = .ok v

theorem store_raw? (p : Page) (key text : String) : (p.store key text).2.storage.raw? key =
    if p.storage.full then p.storage.raw? key else some text := by
  cases full : p.storage.full <;> simp [store, Storage.store, full, note, Storage.put, Storage.raw?,
    Entries.get?_insert]

/-- What is under the key once the page has been asked to store a value there. -/
theorem stocks_store {x : Signal} (holds : p.Stocks kind key v)
    (parsed : kind.parse x.toJson.text = .ok x) :
    (p.store key x.toJson.text).2.Stocks kind key (if p.storage.full then v else x) := by
  obtain ⟨text, entry, read⟩ := holds
  rw [Stocks, store_raw?]
  split
  · exact ⟨text, entry, read⟩
  · exact ⟨_, rfl, parsed⟩

/-- Storing the value that is there leaves it there, whether or not the page refuses. -/
theorem Stocks.store (h : p.Stocks kind key v) (parsed : kind.parse v.toJson.text = .ok v) :
    (p.store key v.toJson.text).2.Stocks kind key v := by
  have stored := stocks_store h parsed
  rwa [ite_self] at stored

end Page

namespace Stored

structure Access where
  readable : Bool
  writable : Bool

/-- One thing that is done without giving a value: to create a stored value with a default, to
reload one of those that have been created, or to close it. -/
inductive Opening where
  | create (default : Signal)
  | reload (n : Nat)
  | close (n : Nat)

namespace Opening

def grant (access : Access) : Action Unit :=
  Action.onPage fun p =>
    ((), { p with
      storage := { p.storage with
        reads := if access.readable then none else some 0
        full := !access.writable } })

def program (kind : Signal.Kind) (key : String) (made : List Stored) :
    Opening → Action (List Stored)
  | .create default => do return made ++ [← Stored.create kind key default]
  | .reload n =>
    match made[n]? with
    | some s => do s.reload; return made
    | none => return made
  | .close n =>
    match made[n]? with
    | some s => do s.close; return made
    | none => return made

def programAll (kind : Signal.Kind) (key : String) : List (Access × Opening) → List Stored →
    Action (List Stored)
  | [], made => return made
  | (access, o) :: rest, made => do
    grant access
    programAll kind key rest (← o.program kind key made)

def IsBlind : Access × Opening → Prop
  | (access, .create _) => access.readable = false ∧ access.writable = true
  | _ => False

def kept (v : Signal) : Access × Opening → Signal
  | (access, .create default) =>
    if access.readable = false ∧ access.writable = true then default else v
  | _ => v

end Opening

/-! ### Runs -/

section Runs
variable {m : Meaning Duty Signal Preview} {g g' : System} {kind : Signal.Kind} {key : String}
    {v : Signal} {depth : Nat}

/-- All listeners write under the key, and all stored values are of the kind and under the key. -/
structure Opened (kind : Signal.Kind) (key : String) (made : List Stored) (g : System) : Prop where
  writers : ∀ {l : ListenerId} {y : Listener Duty}, g.listeners[l]? = some y →
    y.reaction = .call (.store key)
  made : ∀ s ∈ made, s.format = kind.format ∧ s.key = key ∧ s.cell < g.cells.length

namespace Opened
variable {made : List Stored}

theorem still (h : Opened kind key made g) (cells : g.cells.length ≤ g'.cells.length)
    (listeners : ∀ l : ListenerId, g'.listeners[l]?.map Listener.reaction =
      g.listeners[l]?.map Listener.reaction) :
    Opened kind key made g' where
  writers := by
    intro l y hy
    have kept := listeners l
    rw [hy] at kept
    obtain ⟨z, hz, reaction⟩ := Option.map_eq_some_iff.1 kept.symm
    exact reaction ▸ h.writers hz
  made := fun s hs => ⟨(h.made s hs).1, (h.made s hs).2.1,
    Nat.lt_of_lt_of_le (h.made s hs).2.2 cells⟩

theorem alike (h : Opened kind key made g) (alike : g.Alike g') : Opened kind key made g' := by
  refine h.still (Nat.le_of_eq (by rw [alike.cells])) fun l => ?_
  have listener := congrArg (Option.map Prod.fst) (alike.listener l)
  rw [Option.map_map, Option.map_map] at listener
  exact listener

theorem of_parts (h : Opened kind key made g) (parts : g.SameParts g') : Opened kind key made g' :=
  h.still (Nat.le_of_eq (by rw [parts.cells])) fun l => by rw [parts.listeners]

theorem created (h : Opened kind key made g) (initial : Signal) :
    Opened kind key (made ++ [⟨key, kind.format, g.cells.length, g.listeners.length⟩])
      (withCell g key initial) where
  writers := by
    intro l y hy
    rcases withCell_cases hy with old | ⟨-, reaction⟩
    · exact h.writers old
    · exact reaction
  made := by
    intro s hs
    rw [withCell_cells]
    rcases List.mem_append.1 hs with old | new
    · obtain ⟨kinds, keys, cell⟩ := h.made s old
      exact ⟨kinds, keys, Nat.lt_succ_of_lt cell⟩
    · obtain rfl := List.mem_singleton.1 new
      exact ⟨rfl, rfl, Nat.lt_succ_self _⟩

/-- An announcement comes to an end; the value that is announced is stored, or nothing is. -/
theorem announce (writes : ∀ key v, m.reaction (.store key) v = write key v)
    (h : Opened kind key made g) (parsed : kind.parse v.toJson.text = .ok v)
    (holds : g.world.page.Stocks kind key v) {ls : List ListenerId}
    (known : ∀ l ∈ ls, l < g.listeners.length) :
    ∃ g', Reactive.announce (perform m (depth + 1)) v ls g = some g' ∧
      g.SameParts g' ∧ g'.world.page.Stocks kind key v := by
  induction ls generalizing g with
  | nil => exact ⟨g, rfl, ⟨rfl, rfl, rfl⟩, holds⟩
  | cons l ls ih =>
    -- Whichever stored value the listener belongs to, it writes what is under the key already.
    have hy := List.getElem?_eq_getElem (known l List.mem_cons_self)
    obtain ⟨_, g₁, ran, n, written⟩ : (write key v).Ends m.same (perform m depth)
        (g.record (.called l v)) _ :=
      writeWith_ends
    have called : perform m (depth + 1) (.call l v) g = some g₁ := by
      simp only [perform, hy, Option.bind_some, h.writers hy, react, writes, ran, Option.map_some]
    have parts : g.SameParts g₁ := by
      rw [written]
      exact ⟨rfl, rfl, rfl⟩
    have stored : g₁.world.page.Stocks kind key v := by
      rw [written]
      exact holds.store parsed
    obtain ⟨g', rest, parts', holds'⟩ := ih (h.of_parts parts) stored
      fun k hk => parts.listeners ▸ known k (List.mem_cons_of_mem l hk)
    exact ⟨g', by rw [Reactive.announce, called]; exact rest, parts.trans parts', holds'⟩

/-- Putting the value that is under the key into a cell. -/
theorem put (writes : ∀ key v, m.reaction (.store key) v = write key v) (h : Opened kind key made g)
    (parsed : kind.parse v.toJson.text = .ok v) (holds : g.world.page.Stocks kind key v)
    {c : CellId} (cell : c < g.cells.length) :
    (Action.put c v).Ends m.same (perform m (depth + 1)) g fun _ g' =>
      Opened kind key made g' ∧ g'.world.page.Stocks kind key v := by
  obtain ⟨⟨ls, g₁⟩, assigned⟩ : ∃ r, g.assign m.same c v = some r := by
    simp [Graph.assign, List.getElem?_eq_getElem cell]
  refine ends_write.2 ⟨ls, g₁, assigned, ?_⟩
  rcases Graph.assign_cases assigned with ⟨rfl, rfl⟩ | takes
  · exact ⟨g₁, rfl, ends_done.2 ⟨h, holds⟩⟩
  · obtain ⟨version, alike⟩ := takes.alike
    have changed : Opened kind key made (g.withCell c ⟨v, version, ls⟩) :=
      h.still (by simp [Graph.withCell]) fun _ => rfl
    have opened : Opened kind key made g₁ := changed.alike alike
    have known (l : ListenerId) (hl : l ∈ ls) : l < g₁.listeners.length := by
      have live := (Graph.mem_liveSlots.1 (takes.live ▸ hl)).2
      have old : l < g.listeners.length := by
        refine Nat.lt_of_not_le fun beyond => ?_
        rw [Graph.isLive, List.getElem?_eq_none beyond] at live
        cases live
      exact Nat.lt_of_lt_of_le old alike.length_le
    have there : g₁.world.page.Stocks kind key v := by
      rw [show g₁.world = g.world from alike.world]
      exact holds
    obtain ⟨g₂, announced, parts, stored⟩ := opened.announce writes parsed there known
    have unpinned := Graph.Alike.foldl Graph.Alike.unpin ls g₂
    refine ⟨g₂, announced, ends_done.2 ⟨(opened.of_parts parts).alike unpinned, ?_⟩⟩
    rw [unpinned.world]
    exact stored

end Opened

/-- What is read where a value is: the value, if reading succeeds. -/
theorem read?_stocks {same : Signal → Signal → Bool} {perform : Doer Duty Signal Preview}
    (holds : g.world.page.Stocks kind key v) : (read? kind key).Ends same perform g fun r g' =>
      r = (if g.world.page.storage.reads.admits then some v else none) ∧ g.SameParts g' ∧
        g'.world.page = (g.world.page.load key).2 := by
  obtain ⟨text, entry, parsed⟩ := holds
  have read : (readWith? kind.format.read key).Ends same perform g _ := readWith?_entry entry
  rwa [kind.toOption_format, parsed] at read

namespace Opening
variable {access : Access} {made : List Stored}

def Fits (kind : Signal.Kind) : Opening → Prop
  | .create default => kind.Holds default
  | _ => True

theorem create_ends (hk : kind.IsExact) {default : Signal} (fits : kind.Holds default)
    (h : Opened kind key made g) (holds : g.world.page.Stocks kind key v)
    (readable : g.world.page.storage.reads.admits = access.readable)
    (writable : g.world.page.storage.full = !access.writable) {same : Signal → Signal → Bool}
    {perform : Doer Duty Signal Preview} :
    (Stored.create kind key default).Ends same perform g fun s g' =>
      Opened kind key (made ++ [s]) g' ∧
      g'.world.page.Stocks kind key (kept v (access, .create default)) := by
  have fits' : kind.Holds v := by
    obtain ⟨text, -, read⟩ := holds
    exact Signal.Kind.holds_of_parse read
  refine (createWith_made (read?_stocks holds) default).imp ?_
  rintro _ _ ⟨_, g₁, g₂, ⟨rfl, parts, loaded⟩, ⟨n, written⟩, rfl, rfl⟩
  rw [readable] at written ⊢
  have there : g₁.world.page.Stocks kind key v := loaded ▸ holds
  have full : g₁.world.page.storage.full = !access.writable := loaded ▸ writable
  have parts' : g₁.SameParts g₂ := by
    rw [written]
    exact ⟨rfl, rfl, rfl⟩
  constructor
  · exact (h.of_parts (parts.trans parts')).created _
  · change g₂.world.page.Stocks kind key _
    rw [written]
    change (g₁.world.page.store key _).2.Stocks kind key _
    -- What has been read is written back; a default takes the place of what could not be read.
    cases hr : access.readable with
    | true =>
      simp only [kept, hr, if_true]
      exact there.store (Signal.Kind.parse_text hk fits')
    | false =>
      have stored := Page.stocks_store there (Signal.Kind.parse_text hk fits)
      rw [full] at stored
      cases hw : access.writable <;> simpa [kept, hr, hw] using stored

theorem reload_ends (writes : ∀ key v, m.reaction (.store key) v = write key v) (hk : kind.IsExact)
    (h : Opened kind key made g) (holds : g.world.page.Stocks kind key v) {s : Stored}
    (hs : s ∈ made) :
    s.reload.Ends m.same (perform m (depth + 1)) g fun _ g' =>
      Opened kind key made g' ∧ g'.world.page.Stocks kind key v := by
  obtain ⟨format, rfl, cell⟩ := h.made s hs
  have fits : kind.Holds v := by
    obtain ⟨text, -, read⟩ := holds
    exact Signal.Kind.holds_of_parse read
  rw [Stored.reload, format, ends_bind]
  refine (read?_stocks holds).imp ?_
  rintro r g₁ ⟨rfl, parts, loaded⟩
  have opened := h.of_parts parts
  have there : g₁.world.page.Stocks kind s.key v := loaded ▸ holds
  split
  · rename_i x found
    obtain rfl : v = x := by
      split at found
      · exact Option.some.inj found
      · cases found
    exact opened.put writes (Signal.Kind.parse_text hk fits) there (parts.cells ▸ cell)
  · exact ends_pure.2 ⟨opened, there⟩

theorem program_ends (writes : ∀ key v, m.reaction (.store key) v = write key v) (hk : kind.IsExact)
    {o : Opening} (fits : o.Fits kind) (h : Opened kind key made g)
    (holds : g.world.page.Stocks kind key v) :
    (grant access).Ends m.same (perform m (depth + 1)) g fun _ g₁ =>
      (o.program kind key made).Ends m.same (perform m (depth + 1)) g₁ fun made' g' =>
        Opened kind key made' g' ∧ g'.world.page.Stocks kind key (kept v (access, o)) := by
  rw [grant, Action.ends_onPage]
  generalize granted : g.withWorld _ = g₁
  have opened : Opened kind key made g₁ := granted ▸ h.of_parts ⟨rfl, rfl, rfl⟩
  have there : g₁.world.page.Stocks kind key v := granted ▸ holds
  cases o with
  | create default =>
    rw [program, ends_bind]
    have readable : g₁.world.page.storage.reads.admits = access.readable := by
      rw [← granted]
      cases access.readable <;> rfl
    refine (create_ends hk fits opened there readable (granted ▸ rfl)).imp fun s g' done =>
      ends_pure.2 done
  | reload n =>
    rw [program]
    split
    · rename_i s found
      rw [ends_bind]
      exact (reload_ends writes hk opened there (List.mem_of_getElem? found)).imp fun _ g' done =>
        ends_pure.2 done
    · exact ends_pure.2 ⟨opened, there⟩
  | close n =>
    rw [program]
    split
    · rename_i s found
      rw [ends_bind, Stored.close, ends_release, ends_done, ends_pure]
      refine ⟨opened.still (Nat.le_refl _) fun l => ?_, there⟩
      rw [Graph.release, List.getElem?_modify]
      cases g₁.listeners[l]? with
      | none => rfl
      | some y => by_cases hl : s.writer = l <;> simp [hl]
    · exact ends_pure.2 ⟨opened, there⟩

theorem programAll_ends (writes : ∀ key v, m.reaction (.store key) v = write key v)
    (hk : kind.IsExact) {openings : List (Access × Opening)} (fits : ∀ o ∈ openings, o.2.Fits kind)
    (h : Opened kind key made g) (holds : g.world.page.Stocks kind key v) :
    (programAll kind key openings made).Ends m.same (perform m (depth + 1)) g fun _ g' =>
      g'.world.page.Stocks kind key (openings.foldl kept v) := by
  induction openings generalizing made g v with
  | nil => exact ends_pure.2 holds
  | cons o openings ih =>
    obtain ⟨access, o⟩ := o
    rw [programAll, ends_bind]
    refine (program_ends writes hk (fits _ List.mem_cons_self) h holds).imp fun _ g₁ done => ?_
    rw [ends_bind]
    exact done.imp fun made' g₂ both =>
      ih (fun o ho => fits o (List.mem_cons_of_mem _ ho)) both.1 both.2

theorem foldl_kept {openings : List (Access × Opening)} (h : ∀ o ∈ openings, ¬ IsBlind o) :
    openings.foldl kept v = v := by
  induction openings with
  | nil => rfl
  | cons o openings ih =>
    have same : kept v o = v := by
      have sighted := h o List.mem_cons_self
      obtain ⟨access, o⟩ := o
      cases o with
      | create default => exact if_neg sighted
      | reload n => rfl
      | close n => rfl
    rw [List.foldl_cons, same]
    exact ih fun o ho => h o (List.mem_cons_of_mem _ ho)

end Opening

/-- Whatever reads and writes fail while a stored value is created, reloaded and closed any number
of times, what is under its key afterwards is the value that was there, or the default of the last
creation that could write but not read. -/
theorem value_after_openings (writes : ∀ key v, m.reaction (.store key) v = write key v)
    (hk : kind.IsExact) {w : Preview} (holds : w.page.Stocks kind key v)
    {openings : List (Access × Opening)} (fits : ∀ o ∈ openings, o.2.Fits kind) :
    ∃ made g, (Opening.programAll kind key openings []).run m.same (perform m (depth + 1))
      { world := w } = some (made, g) ∧
      g.world.page.Stocks kind key (openings.foldl Opening.kept v) ∧
      ((∀ o ∈ openings, ¬ Opening.IsBlind o) → g.world.page.Stocks kind key v) := by
  have opened : Opened kind key [] ({ world := w } : System) := ⟨nofun, nofun⟩
  obtain ⟨made, g, ran, after⟩ :=
    @Opening.programAll_ends m _ kind key v depth [] writes hk openings fits opened holds
  exact ⟨made, g, ran, after, fun sighted => by rwa [Opening.foldl_kept sighted] at after⟩

end Runs

/-! A theme is lost where it could not be read. -/

def darkened : Preview := { page := { storage := { entries := [("theme", "\"dark\"")] } } }

def lightened : List (Access × Opening) :=
  [(⟨true, true⟩, .create (.theme .light)), (⟨false, false⟩, .create (.theme .light)),
    (⟨true, true⟩, .reload 0), (⟨false, true⟩, .create (.theme .light))]

theorem value_after_openings_lightened : darkened.page.Stocks .theme "theme" (.theme .dark) ∧
    ∃ made g, (Opening.programAll .theme "theme" lightened []).run App.meaning.same
      (perform App.meaning 1)
      { world := darkened } = some (made, g) ∧
      g.world.page.Stocks .theme "theme" (.theme .light) := by
  have hk : Signal.Kind.IsExact .theme := trivial
  have dark : darkened.page.Stocks .theme "theme" (.theme .dark) :=
    ⟨_, rfl, Signal.Kind.parse_text hk (.theme .dark)⟩
  have fits : ∀ o ∈ lightened, o.2.Fits .theme := by
    simp only [lightened, List.forall_mem_cons]
    exact ⟨.theme _, .theme _, trivial, .theme _, nofun⟩
  obtain ⟨made, g, ran, after, -⟩ :=
    @value_after_openings App.meaning .theme "theme" _ 0 (fun _ _ => rfl) hk _ dark _ fits
  exact ⟨dark, made, g, ran, after⟩

end Stored
end StoryPreview
