import StoryPreview.Proofs.OrderedMap
import StoryPreview.Reactive.Script
/-!
Programs that give up only listeners that they were given. What a listener is known by is a number,
so a program could name one that belongs to an effect; an honest program does not. It has at hand
the listeners that it has attached, and those that it finds in the world, where honest programs have
put them.
-/
namespace StoryPreview.Reactive
variable {B V W α β : Type} {keeps : W → ListenerId → Prop} {own own' : ListenerId → Prop}

/-- With some listeners at hand, and worlds that keep listeners, a program gives up and keeps no
others. -/
def Program.Honest (keeps : W → ListenerId → Prop) : Program B V W α → (ListenerId → Prop) → Prop
  | .done _, _ => True
  | .create _ next, own => ∀ c, (next c).Honest keeps own
  | .read _ next, own => ∀ v, (next v).Honest keeps own
  | .inspect _ next, own => ∀ x, (next x).Honest keeps own
  | .write _ _ next, own => next.Honest keeps own
  | .untracked _ next, own => next.Honest keeps own
  | .subscribe _ _ next, own => ∀ l, (next l).Honest keeps fun k => k = l ∨ own k
  | .release l next, own => own l ∧ next.Honest keeps own
  | .spawn _ next, own => ∀ e, (next e).Honest keeps own
  | .dispose _ next, own => next.Honest keeps own
  | .drop _ next, own => next.Honest keeps own
  | .examine _ next, own => ∀ x, (next x).Honest keeps own
  | .ask next, own => ∀ w, (next w).Honest keeps fun k => keeps w k ∨ own k
  | .change f next, own => (∀ w l, keeps (f w) l → keeps w l ∨ own l) ∧ next.Honest keeps own
  | .report _ next, own => next.Honest keeps own
  | .within _ next, own => next.Honest keeps own

abbrev Program.HonestAlone (keeps : W → ListenerId → Prop) (p : Program B V W α) : Prop :=
  p.Honest keeps fun _ => False

structure Meaning.Honest (m : Meaning B V W) (keeps : W → ListenerId → Prop) : Prop where
  body : ∀ b, (m.body b).HonestAlone keeps
  reaction : ∀ b v, (m.reaction b v).HonestAlone keeps

namespace Program

theorem Honest.mono {p : Program B V W α} (h : p.Honest keeps own) (ho : ∀ l, own l → own' l) :
    p.Honest keeps own' := by
  induction p generalizing own own' with
  | done a => trivial
  | create v next ih => exact fun c => ih c (h c) ho
  | read c next ih => exact fun v => ih v (h v) ho
  | inspect c next ih => exact fun x => ih x (h x) ho
  | write c v next ih => exact ih h ho
  | untracked body next ih => exact ih h ho
  | subscribe c reaction next ih => exact fun l => ih l (h l) fun k hk => hk.imp_right (ho k)
  | release l next ih => exact ⟨ho l h.1, ih h.2 ho⟩
  | spawn body next ih => exact fun e => ih e (h e) ho
  | dispose e next ih => exact ih h ho
  | drop e next ih => exact ih h ho
  | examine e next ih => exact fun x => ih x (h x) ho
  | ask next ih => exact fun w => ih w (h w) fun k hk => hk.imp_right (ho k)
  | change f next ih => exact ⟨fun w l hl => (h.1 w l hl).imp_right (ho l), ih h.2 ho⟩
  | report n next ih => exact ih h ho
  | within span next ih => exact ih h ho

theorem Honest.bind {p : Program B V W α} (h : p.Honest keeps own) {f : α → Program B V W β}
    (hf : ∀ a, (f a).Honest keeps own) : (p.bind f).Honest keeps own := by
  induction p generalizing own with
  | done a => exact hf a
  | create v next ih => exact fun c => ih c (h c) hf
  | read c next ih => exact fun v => ih v (h v) hf
  | inspect c next ih => exact fun x => ih x (h x) hf
  | write c v next ih => exact ih h hf
  | untracked body next ih => exact ih h hf
  | subscribe c reaction next ih =>
    exact fun l => ih l (h l) fun a => (hf a).mono fun k hk => .inr hk
  | release l next ih => exact ⟨h.1, ih h.2 hf⟩
  | spawn body next ih => exact fun e => ih e (h e) hf
  | dispose e next ih => exact ih h hf
  | drop e next ih => exact ih h hf
  | examine e next ih => exact fun x => ih x (h x) hf
  | ask next ih => exact fun w => ih w (h w) fun a => (hf a).mono fun k hk => .inr hk
  | change f next ih => exact ⟨h.1, ih h.2 hf⟩
  | report n next ih => exact ih h hf
  | within span next ih => exact ih h hf

end Program

/-! ### Scripts -/

namespace Script

def Keeps (s : State) (l : ListenerId) : Prop := ∃ name, (name, l) ∈ s.listeners

/-- A change of the state that gives no listener a name. -/
theorem honest_change {f : State → State} (hf : ∀ s, (f s).listeners = s.listeners)
    {next : Code Unit} (h : next.Honest Keeps own) : Program.Honest Keeps (.change f next) own :=
  ⟨fun s l hl => .inl (by rwa [Keeps, hf] at hl), h⟩

theorem honest_say (line : Line) : (say line).Honest Keeps own :=
  honest_change (fun _ => rfl) trivial

theorem honest_spent {act : Code Unit} (h : act.Honest Keeps own) :
    (statement.spent act).Honest Keeps own := by
  have spent : spend.Honest Keeps own := by
    intro s
    by_cases hs : s.budget = 0
    · simp only [hs, if_true]
      trivial
    · simp only [hs, if_false]
      exact ⟨fun _ _ hl => .inl hl, trivial⟩
  refine spent.bind fun b => ?_
  cases b with
  | false => trivial
  | true => exact h

theorem honest_withCell {name : String} {f : CellId → Code Unit}
    (h : ∀ c, (f c).HonestAlone Keeps) : (withCell name f).Honest Keeps own := by
  intro s
  cases hc : s.cells.get? name with
  | none =>
    simp only [hc]
    trivial
  | some c =>
    simp only [hc]
    exact (h c).mono fun _ => False.elim

theorem honest_withEffect {name : String} {f : EffectId → Code Unit}
    (h : ∀ e, (f e).HonestAlone Keeps) : (withEffect name f).Honest Keeps own := by
  intro s
  cases he : s.effects.get? name with
  | none =>
    simp only [he]
    trivial
  | some e =>
    simp only [he]
    exact (h e).mono fun _ => False.elim

/-- A listener that is found under its name is at hand. -/
theorem honest_withListener {name : String} {f : ListenerId → Code Unit}
    (h : ∀ l, (f l).Honest Keeps (· = l)) : (withListener name f).Honest Keeps own := by
  intro s
  cases hl : s.listeners.get? name with
  | none =>
    simp only [hl]
    trivial
  | some l =>
    simp only [hl]
    refine (h l).mono fun k hk => .inl ⟨name, ?_⟩
    rw [hk]
    exact Entries.mem_of_get? hl

theorem honest_keepEffect (name : String) (e : EffectId) :
    (keepEffect name e).Honest Keeps own := by
  intro s
  refine honest_change (fun _ => rfl) ?_
  cases s.effects.get? name <;> trivial

/-- A listener that gets the name of another takes its place. -/
theorem honest_keepListener (name : String) {l : ListenerId} (h : own l) :
    (keepListener name l).Honest Keeps own := by
  intro s
  refine ⟨?_, ?_⟩
  · rintro w k ⟨other, hk⟩
    rcases Entries.mem_of_insert hk with rfl | hk
    · exact .inr (.inr h)
    · exact .inl ⟨other, hk⟩
  · cases hl : s.listeners.get? name with
    | none => trivial
    | some old => exact ⟨.inl ⟨name, Entries.mem_of_get? hl⟩, trivial⟩

theorem honest_inspect (thing : Thing) (name : String) : (inspect thing name).Honest Keeps own := by
  intro s
  cases thing with
  | cell =>
    cases hc : s.cells.get? name with
    | none =>
      simp only [hc]
      exact honest_say _
    | some c =>
      simp only [hc]
      exact fun x => honest_say _
  | effect =>
    cases he : s.effects.get? name with
    | none =>
      simp only [he]
      exact honest_say _
    | some e =>
      simp only [he]
      exact fun x => honest_say _
  | listener => exact honest_say _

theorem honest_readCell (how : Access) (name : String) (c : CellId) :
    (readCell how name c).Honest Keeps own := by
  unfold readCell
  split
  · exact fun v => honest_say _
  · exact fun x => honest_say _

theorem honest_addTo (c : CellId) (amount limit : Double) :
    (addTo c amount limit).Honest Keeps own := by
  intro x
  dsimp only
  split
  · split <;> trivial
  · trivial

mutual

theorem honest_statement (s : Statement) : (statement s).HonestAlone Keeps := by
  cases s with
  | read how cell => exact honest_spent (honest_withCell (honest_readCell how cell))
  | set cell value => exact honest_spent (honest_withCell fun c => trivial)
  | copy source target => exact honest_spent (honest_withCell fun a v => honest_withCell fun b =>
    trivial)
  | add cell amount limit => exact honest_spent (honest_withCell fun c =>
    honest_addTo c amount limit)
  | branch cell value same other =>
    refine honest_spent (honest_withCell fun c v => ?_)
    dsimp only
    split
    · exact honest_statements same
    · exact honest_statements other
  | untracked body => exact honest_spent trivial
  | log label => exact honest_spent (honest_say _)
  | live cell => exact honest_spent (honest_withCell fun c x => honest_say _)
  | spawn effect body => exact honest_spent (honest_keepEffect effect)
  | inspect thing name => exact honest_spent (honest_inspect thing name)
  | dispose effect => exact honest_spent (honest_withEffect fun e => trivial)
  | drop effect => exact honest_spent (honest_withEffect fun e =>
    honest_change (fun _ => rfl) trivial)
  | subscribe name cell body =>
    exact honest_spent (honest_withCell fun c l => honest_keepListener name (.inl rfl))
  | unsubscribe name =>
    refine honest_spent (honest_withListener fun l => ⟨?_, rfl, trivial⟩)
    rintro s k ⟨other, hk⟩
    exact .inl ⟨other, Entries.mem_of_erase hk⟩

theorem honest_statements (ss : List Statement) : (statements ss).HonestAlone Keeps := by
  cases ss with
  | nil => exact trivial
  | cons s rest => exact (honest_statement s).bind fun _ => honest_statements rest

end

/-- Scripts are honest. -/
theorem honest_meaning : meaning.Honest Keeps where
  body b := by
    cases b with
    | plain body => exact honest_statements body
    | effect name body =>
      exact (honest_say _).bind fun _ => (honest_statements body).bind fun _ => honest_say _
    | listener name body => exact honest_statements body
  reaction b v := by
    cases b with
    | plain body => exact honest_statements body
    | effect name body => exact honest_statements body
    | listener name body => exact (honest_say _).bind fun _ => honest_statements body

end Script
end StoryPreview.Reactive
