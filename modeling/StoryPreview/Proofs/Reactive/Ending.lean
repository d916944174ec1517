import StoryPreview.Reactive.Run
/-!
Programs that come to an end. `p.Ends same perform g Q` says that a program comes to an end from a
state, with a value and a state that satisfy `Q`. There is one rule for each thing that a program
can do, so that a program is followed step by step through its text.
-/
namespace StoryPreview.Reactive
variable {B V W α β : Type} {same : V → V → Bool} {perform : Doer B V W}

namespace Graph

def withWorld (g : Graph B V W) (w : W) : Graph B V W := { g with world := w }

def withSpan (g : Graph B V W) (span : Option Span) : Graph B V W := { g with span := span }

end Graph

namespace Program

/-- The program comes to an end, with a value and a state that satisfy `Q`. -/
def Ends (same : V → V → Bool) (perform : Doer B V W) (p : Program B V W α) (g : Graph B V W)
    (Q : α → Graph B V W → Prop) : Prop :=
  ∃ a g', p.run same perform g = some (a, g') ∧ Q a g'

theorem run_bind (p : Program B V W α) (f : α → Program B V W β) (g : Graph B V W) :
    (p.bind f).run same perform g =
      (p.run same perform g).bind fun r => (f r.1).run same perform r.2 := by
  induction p generalizing g with
  | done a => rfl
  | create v next ih => exact ih _ _
  | read c next ih =>
    simp only [Program.bind, run, Option.bind_assoc]
    exact Option.bind_congr fun x _ => ih _ _
  | inspect c next ih =>
    simp only [Program.bind, run, Option.bind_assoc]
    exact Option.bind_congr fun x _ => ih _ _
  | write c v next ih =>
    simp only [Program.bind, run, Option.bind_assoc]
    refine Option.bind_congr ?_
    rintro ⟨ls, g₁⟩ _
    simp only []
    exact Option.bind_congr fun y _ => ih _
  | untracked body next ih =>
    simp only [Program.bind, run, Option.bind_assoc]
    exact Option.bind_congr fun y _ => ih _
  | subscribe c reaction next ih => exact ih _ _
  | release l next ih => exact ih _
  | spawn body next ih =>
    simp only [Program.bind, run, Option.bind_assoc]
    exact Option.bind_congr fun y _ => ih _ _
  | dispose e next ih => exact ih _
  | drop e next ih => exact ih _
  | examine e next ih =>
    simp only [Program.bind, run, Option.bind_assoc]
    exact Option.bind_congr fun x _ => ih _ _
  | ask next ih => exact ih _ _
  | change f next ih => exact ih _
  | report n next ih => exact ih _
  | within span next ih => exact ih _

variable {g : Graph B V W} {Q R : α → Graph B V W → Prop}

theorem Ends.imp {p : Program B V W α} (h : p.Ends same perform g Q)
    (hQ : ∀ a g', Q a g' → R a g') : p.Ends same perform g R := by
  obtain ⟨a, g', hr, hq⟩ := h
  exact ⟨a, g', hr, hQ a g' hq⟩

/-- A program comes to one end only. -/
theorem Ends.of_run {p : Program B V W α} (h : p.Ends same perform g Q) {a : α} {g' : Graph B V W}
    (hr : p.run same perform g = some (a, g')) : Q a g' := by
  obtain ⟨b, k, hk, hq⟩ := h
  cases hr.symm.trans hk
  exact hq

theorem Ends.and {p : Program B V W α} (h : p.Ends same perform g Q)
    (h' : p.Ends same perform g R) : p.Ends same perform g fun a g' => Q a g' ∧ R a g' := by
  obtain ⟨a, g', hr, hq⟩ := h
  exact ⟨a, g', hr, hq, h'.of_run hr⟩

@[simp] theorem ends_done {a : α} : (done a : Program B V W α).Ends same perform g Q ↔ Q a g := by
  constructor
  · rintro ⟨_, _, h, hq⟩
    cases h
    exact hq
  · exact fun hq => ⟨a, g, rfl, hq⟩

@[simp] theorem ends_pure {a : α} : (pure a : Program B V W α).Ends same perform g Q ↔ Q a g :=
  ends_done

@[simp] theorem ends_bind {p : Program B V W β} {f : β → Program B V W α} :
    (p >>= f).Ends same perform g Q ↔
      p.Ends same perform g fun b g' => (f b).Ends same perform g' Q := by
  change (p.bind f).Ends same perform g Q ↔ _
  constructor
  · rintro ⟨a, g', hr, hq⟩
    rw [run_bind, Option.bind_eq_some_iff] at hr
    obtain ⟨⟨b, g₁⟩, hp, hf⟩ := hr
    exact ⟨b, g₁, hp, a, g', hf, hq⟩
  · rintro ⟨b, g₁, hp, a, g', hf, hq⟩
    exact ⟨a, g', by simp [run_bind, hp, hf], hq⟩

@[simp] theorem ends_create {v : V} {next : CellId → Program B V W α} :
    (create v next).Ends same perform g Q ↔
      (next g.cells.length).Ends same perform (g.addCell v).2 Q := .rfl

@[simp] theorem ends_read {c : CellId} {next : V → Program B V W α} :
    (read c next).Ends same perform g Q ↔
      ∃ x, g.cells[c]? = some x ∧ (next x.value).Ends same perform (g.track c) Q := by
  cases h : g.cells[c]? <;> simp [Ends, run, h]

@[simp] theorem ends_inspect {c : CellId} {next : CellView V → Program B V W α} :
    (inspect c next).Ends same perform g Q ↔
      ∃ x, g.cellView? c = some x ∧ (next x).Ends same perform g Q := by
  cases h : g.cellView? c <;> simp [Ends, run, h]

theorem ends_write {c : CellId} {v : V} {next : Program B V W α} :
    (write c v next).Ends same perform g Q ↔
      ∃ ls g₁, g.assign same c v = some (ls, g₁) ∧
        ∃ g₂, announce perform v ls g₁ = some g₂ ∧
          next.Ends same perform (ls.foldl Graph.unpin g₂) Q := by
  simp only [Ends, run, Option.bind_eq_some_iff, Prod.exists]
  constructor
  · rintro ⟨a, g', ⟨ls, g₁, h₁, g₂, h₂, h₃⟩, hq⟩
    exact ⟨ls, g₁, h₁, g₂, h₂, a, g', h₃, hq⟩
  · rintro ⟨ls, g₁, h₁, g₂, h₂, a, g', h₃, hq⟩
    exact ⟨a, g', ⟨ls, g₁, h₁, g₂, h₂, h₃⟩, hq⟩

@[simp] theorem ends_subscribe {c : CellId} {reaction : B} {next : ListenerId → Program B V W α} :
    (subscribe c reaction next).Ends same perform g Q ↔
      (next g.listeners.length).Ends same perform (g.subscribe c (.call reaction)).2 Q := .rfl

@[simp] theorem ends_release {l : ListenerId} {next : Program B V W α} :
    (release l next).Ends same perform g Q ↔ next.Ends same perform (g.release l) Q := .rfl

theorem ends_spawn {body : B} {next : EffectId → Program B V W α} :
    (spawn body next).Ends same perform g Q ↔
      ∃ g', perform (.effect g.effects.length) (g.addEffect body).2 = some g' ∧
        (next g.effects.length).Ends same perform g' Q := by
  simp only [Ends, run, Graph.addEffect, Option.bind_eq_some_iff]
  constructor
  · rintro ⟨a, g', ⟨g₁, h₁, h₂⟩, hq⟩
    exact ⟨g₁, h₁, a, g', h₂, hq⟩
  · rintro ⟨g₁, h₁, a, g', h₂, hq⟩
    exact ⟨a, g', ⟨g₁, h₁, h₂⟩, hq⟩

@[simp] theorem ends_dispose {e : EffectId} {next : Program B V W α} :
    (dispose e next).Ends same perform g Q ↔ next.Ends same perform (g.dispose e) Q := .rfl

@[simp] theorem ends_drop {e : EffectId} {next : Program B V W α} :
    (drop e next).Ends same perform g Q ↔ next.Ends same perform (g.drop e) Q := .rfl

@[simp] theorem ends_ask {next : W → Program B V W α} :
    (ask next).Ends same perform g Q ↔ (next g.world).Ends same perform g Q := .rfl

@[simp] theorem ends_change {f : W → W} {next : Program B V W α} :
    (change f next).Ends same perform g Q ↔
      next.Ends same perform (g.withWorld (f g.world)) Q := .rfl

@[simp] theorem ends_report {n : Note} {next : Program B V W α} :
    (report n next).Ends same perform g Q ↔ next.Ends same perform (g.record (.noted n)) Q := .rfl

@[simp] theorem ends_within {span : Option Span} {next : Program B V W α} :
    (within span next).Ends same perform g Q ↔ next.Ends same perform (g.withSpan span) Q := .rfl

end Program
end StoryPreview.Reactive
