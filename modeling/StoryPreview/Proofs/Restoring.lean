import StoryPreview.Proofs.Kinds
import StoryPreview.Proofs.Reflecting
/-!
Stored values that are created again. The value that the writer was called with last is under the
key, and the next stored value there starts with what is read of it. That is the value itself if all
its numbers are short: reading rounds the significand and the power of ten of a longer one.
-/
namespace StoryPreview.Stored
open Reactive Program
variable {same : Signal → Signal → Bool} {perform : Doer Duty Signal Preview} {g g₁ g₂ g₃ : System}
    {kind : Signal.Kind}
variable {key : String} {default : Signal} {s : Stored} {initial : Signal}

/-- Where there is a text that can be read, a stored value starts with what the text holds, or else
with its default. -/
theorem create_entry {text : String} (entry : g.world.page.storage.raw? key = some text)
    (readable : g.world.page.storage.reads.admits = true) (default : Signal) :
    (create kind key default).Ends same perform g fun s g' =>
      g'.Shows (s.cell, (kind.parse text).toOption.getD default) := by
  refine (createWith_made (readWith?_entry entry) default).imp ?_
  rintro _ _ ⟨_, g₁, g₂, ⟨rfl, -, -⟩, -, rfl, rfl⟩
  rw [readable, if_pos rfl, kind.toOption_format]
  exact withCell_shows

/-- A stored value that is created where another one has stored its values, and no store was
refused, starts with what is read of the last of them, whatever its default is. Naturals, texts,
truth values and themes are read as they were, and so are numbers if they are short. -/
theorem value_after_recreation {m : Meaning Duty Signal Preview}
    (writes : ∀ key v, m.reaction (.store key) v = write key v) {w : Preview}
    {before calls : List (Nat × Action Unit)} {depth again : Nat}
    (ran : runAll m before { world := w } = some g₁)
    (created : (create kind key default).run m.same (Reactive.perform m depth) g₁ = some (s, g₂))
    (called : runAll m calls g₂ = some g₃) (undisturbed : Undisturbed m key calls)
    (unclaimed : Unclaimed key g₁)
    (accepted : ∀ x ∈ (g₃.world.page.stores key).drop (g₁.world.page.stores key).length,
      x.2 = false)
    (readable : g₃.world.page.storage.reads.admits = true) :
    ∃ initial last, g₂.Shows (s.cell, initial) ∧
      last = (g₃.told s.writer).getLastD initial ∧ (s.IsOpen g₃ → g₃.Shows (s.cell, last)) ∧
      (kind.Holds last → last.IsFinite → ∀ default, ∃ s' g₄,
        (create kind key default).run m.same (Reactive.perform m again) g₃ = some (s', g₄) ∧
        g₄.Shows (s'.cell, last.restored.getD default) ∧
        (kind.IsExact ∨ last.IsShort → g₄.Shows (s'.cell, last))) := by
  obtain ⟨initial, made⟩ := exists_created ran created
  obtain ⟨loose, mirrors⟩ := made.mirrors_runAll writes called
  have reflected := mirrors.reflected loose
  obtain ⟨all, -⟩ := made.stores_runAll writes undisturbed unclaimed called
  generalize last_eq : (g₃.told s.writer).getLastD initial = last
  have entry : g₃.world.page.storage.raw? key = some last.toJson.text := by
    rw [all.entry accepted, kind.format_texts, List.getLast?_map, List.getLast?_cons,
      ← List.getLastD_eq_getLast?, last_eq]
    rfl
  refine ⟨initial, last, made.shows, last_eq.symm, fun opened => ?_, fun fits finite default => ?_⟩
  · rw [← last_eq, reflected.all opened]
    exact reflected.shows
  · obtain ⟨s', g₄, again, shows⟩ := create_entry entry readable default
    rw [Signal.Kind.parse_stored fits finite] at shows
    refine ⟨s', g₄, again, shows, fun kept => ?_⟩
    have short : last.IsShort := kept.elim (fun hk => (hk.finite_short fits).2) id
    rwa [short.restored] at shows

/-! A number that has more digits than a significand is read as its neighbour. -/

def echo : Meaning Duty Signal Preview where
  same := Signal.same
  body _ := .done ()
  reaction
    | .store key, v => write key v
    | .watch _ _ c _, .flag true => .write c (.flag false) (.done ())
    | _, _ => .done ()

theorem echo_leavesAlone (key : String) : echo.LeavesAlone key where
  body _ _ := trivial
  reaction b v apart w := by
    cases b with
    | store other => exact writeWith_leavesAlone (fun h => apart (congrArg _ h)) _ v w
    | followUrl c => trivial
    | followAddress r => trivial
    | watch name view c d =>
      cases v with
      | flag on =>
        cases on with
        | true => exact fun _ => trivial
        | false => trivial
      | _ => trivial

def enlarged (s : Stored) : List (Nat × Action Unit) :=
  [(8, s.set (.real (.ofNat 9007199254740991))), (8, s.close)]

theorem enlarged_undisturbed (s : Stored) (key : String) : Undisturbed echo key (enlarged s) where
  bodies := echo_leavesAlone key
  calls := by
    simp only [enlarged, List.forall_mem_cons]
    exact ⟨s.set_leavesAlone _ key, s.close_leavesAlone key, nofun⟩

theorem value_after_recreation_enlarged : ∃ s g₂ g₃ s' g₄,
    (create .real "size" (.real .zero)).run echo.same (Reactive.perform echo 8) { world := {} } =
      some (s, g₂) ∧
    runAll echo (enlarged s) g₂ = some g₃ ∧ g₃.told s.writer = [.real (.ofNat 9007199254740991)] ∧
    (create .real "size" (.real .zero)).run echo.same (Reactive.perform echo 8) g₃ = some (s', g₄) ∧
    g₄.Shows (s'.cell, .real (.ofNat 9007199254740990)) := by
  have evaluated : ((create .real "size" (.real .zero)).run echo.same (Reactive.perform echo 8)
      { world := {} }).bind (fun r => (runAll echo (enlarged r.1) r.2).map fun g =>
        (g.told r.1.writer, g.world.page.stores "size", g.world.page.storage.reads.admits)) =
      some ([.real (.ofNat 9007199254740991)], [("0.0", false), ("9007199254740991.0", false)],
        true) := by
    decide +kernel
  obtain ⟨⟨s, g₂⟩, created, rest⟩ := Option.bind_eq_some_iff.1 evaluated
  obtain ⟨g₃, called, seen⟩ := Option.map_eq_some_iff.1 rest
  obtain ⟨told, seen⟩ := Prod.mk.inj seen
  obtain ⟨stores, readable⟩ := Prod.mk.inj seen
  have start : runAll echo [] { world := {} } = some ({ world := {} } : System) := rfl
  have accepted : ∀ x ∈ (g₃.world.page.stores "size").drop 0, x.2 = false := by
    rw [stores]
    decide
  obtain ⟨initial, last, -, last_eq, -, again⟩ :=
    @value_after_recreation _ _ _ _ _ _ _ echo (fun _ _ => rfl) _ _ _ _ 8
    start created called (enlarged_undisturbed s "size") nofun accepted readable
  rw [told] at last_eq
  obtain rfl : last = .real (.ofNat 9007199254740991) := last_eq
  have finite : (Double.ofNat 9007199254740991).isFinite = true := by decide +kernel
  have read : (Signal.real (.ofNat 9007199254740991)).restored =
    some (.real (.ofNat 9007199254740990)) := by decide +kernel
  obtain ⟨s', g₄, made, shows, -⟩ := again (.real _) finite (.real .zero)
  rw [read] at shows
  exact ⟨s, g₂, g₃, s', g₄, created, called, told, made, shows⟩

end StoryPreview.Stored
