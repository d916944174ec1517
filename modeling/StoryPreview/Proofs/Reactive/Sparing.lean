import StoryPreview.Proofs.Reactive.Rewiring
/-!
Steps that spare effects: cells keep their values, listeners what they are for, and all effects but
perhaps one are as they were and stay hooked.
-/
namespace StoryPreview.Reactive.Graph
variable {B V W : Type} {out : Option EffectId} {g g' g'' : Graph B V W} {e : EffectId}
    {x : Effect B}

def Shows (g : Graph B V W) (p : CellId × V) : Prop := g.cells[p.1]?.map Cell.value = some p.2

def Plain (g : Graph B V W) (l : ListenerId) : Prop := ∃ y b, g.listeners[l]? = some y ∧
    y.reaction = .call b

structure Spares (out : Option EffectId) (g g' : Graph B V W) : Prop where
  shows : ∀ {p : CellId × V}, g.Shows p → g'.Shows p
  lasting : g.Lasting g'
  hooked : ∀ {d k : Nat} {c : CellId}, out ≠ some d → g.Hooked d k c → g'.Hooked d k c
  effect : ∀ {d : EffectId}, out ≠ some d → g'.effects[d]? = g.effects[d]?

namespace Spares

theorem refl (g : Graph B V W) : g.Spares out g :=
  ⟨id, Lasting.of_eq rfl, fun _ => id, fun _ => rfl⟩

theorem trans (h : g.Spares out g') (h' : g'.Spares out g'') : g.Spares out g'' where
  shows := fun hp => h'.shows (h.shows hp)
  lasting := Lasting.trans h.lasting h'.lasting
  hooked := fun ho hk => h'.hooked ho (h.hooked ho hk)
  effect := fun ho => (h'.effect ho).trans (h.effect ho)

theorem of_steady (h : g.Steady g')
    (hooked : ∀ {d k : Nat} {c : CellId}, out ≠ some d → g.Hooked d k c → g'.Hooked d k c)
    (effect : ∀ {d : EffectId}, out ≠ some d → g'.effects[d]? = g.effects[d]?) : g.Spares out g' :=
  ⟨fun {p} hp => (h.value p.1).trans hp, h.reaction, hooked, effect⟩

/-- Only cells, listeners and effects matter. -/
theorem of_eq (hc : g'.cells = g.cells) (hl : g'.listeners = g.listeners)
    (he : g'.effects = g.effects) : g.Spares out g' :=
  of_steady (.of_eq hc hl) (fun _ hk => hk.congr hc hl) fun _ => by rw [he]

theorem alike (h : g.Alike g') : g.Spares out g' :=
  of_steady h.steady (fun _ hk => h.hooked hk) fun _ => by rw [h.effects]

theorem addCell (g : Graph B V W) (v : V) : g.Spares out (g.addCell v).2 where
  shows := by
    intro p hp
    obtain ⟨x, hx, -⟩ := Option.map_eq_some_iff.1 hp
    have hlt := (List.getElem?_eq_some_iff.1 hx).1
    simpa [Shows, Graph.addCell, List.getElem?_append_left hlt] using hp
  lasting := Lasting.of_eq rfl
  hooked := by
    rintro d k c - ⟨z, l, y, hz, hl, hy⟩
    have hlt := (List.getElem?_eq_some_iff.1 hz).1
    exact ⟨z, l, y, by simp [Graph.addCell, List.getElem?_append_left hlt, hz], hl, hy⟩
  effect := fun _ => rfl

theorem subscribe (g : Graph B V W) (c : CellId) (r : Reaction B) :
    g.Spares out (g.subscribe c r).2 :=
  of_steady (.subscribe g c r) (fun _ hk => hk.subscribe c r) fun _ => rfl

theorem attach (e epoch : Nat) (cs : List CellId) (g : Graph B V W) :
    g.Spares out (g.attach e epoch cs).2 :=
  of_steady (.attach e epoch cs g) (fun _ hk => hk.attach cs) fun _ => by rw [attach_effects]

/-- Releasing listeners leaves those effects hooked that they are not for. -/
theorem releaseAll (g : Graph B V W) (ls : List ListenerId)
    (hls : ∀ l ∈ ls, ∀ y, g.listeners[l]? = some y → ∀ d epoch, y.reaction = .rerun d epoch →
      out = some d) : g.Spares out (g.releaseAll ls) := by
  refine of_steady (.releaseAll g ls) ?_ fun _ => by rw [releaseAll_effects]
  rintro d k c ho ⟨z, l, y, hz, hl, hy, hr, hg⟩
  refine ⟨z, l, y, by rwa [releaseAll_cells], hl, ?_, hr, hg⟩
  rw [releaseAll_listener, hy, Option.map_some, if_neg fun hm => ho (hls l hm y hy d k hr)]

theorem release {l : ListenerId} (h : g.Plain l) : g.Spares out (g.release l) := by
  obtain ⟨y, b, hy, hb⟩ := h
  refine releaseAll g [l] fun l' hl' y' hy' d epoch hr => ?_
  obtain rfl := List.mem_singleton.1 hl'
  obtain rfl := Option.some.inj (hy.symm.trans hy')
  rw [hb] at hr
  cases hr

theorem addEffect (g : Graph B V W) (body : B) :
    g.Spares (some g.effects.length) (g.addEffect body).2 :=
  of_steady (.of_eq rfl rfl) (fun _ hk => hk.congr rfl rfl) fun {d} ho => by
    have hd : d ≠ g.effects.length := fun hd => ho (congrArg some hd.symm)
    by_cases hlt : d < g.effects.length
    · exact List.getElem?_append_left hlt
    · rw [List.getElem?_eq_none (Nat.le_of_not_lt hlt)]
      refine List.getElem?_eq_none ?_
      simp only [Graph.addEffect, List.length_append, List.length_singleton]
      exact Nat.lt_of_le_of_ne (Nat.le_of_not_lt hlt) hd.symm

theorem setEffect (g : Graph B V W) (e : EffectId) (x : Effect B) :
    g.Spares (some e) { g with effects := g.effects.set e x } :=
  of_steady (.of_eq rfl rfl) (fun _ hk => hk.congr rfl rfl) fun ho =>
    List.getElem?_set_ne fun he => ho (congrArg some he)

theorem releaseOwn (own : g.Owns) (hx : g.effects[e]? = some x) :
    g.Spares (some e) (g.releaseAll x.subscriptions) :=
  releaseAll g x.subscriptions fun l hl y hy d epoch hr =>
    congrArg some (own.only hx l hl y hy d epoch hr).symm

theorem start (own : g.Owns) (hx : g.effects[e]? = some x) : g.Spares (some e) (g.start e x) :=
  ((releaseOwn own hx).trans (setEffect _ e _)).trans (of_eq rfl rfl rfl)

theorem dispose (own : g.Owns) (e : EffectId) : g.Spares (some e) (g.dispose e) := by
  rcases dispose_cases g e with ⟨h, -⟩ | ⟨x, hx, -, h⟩
  · rw [h]
    exact .refl g
  · rw [h, ← releaseAll_effects]
    exact (releaseOwn own hx).trans (setEffect _ e _)

theorem drop (own : g.Owns) (e : EffectId) : g.Spares (some e) (g.drop e) :=
  (dispose own e).trans (of_steady (.of_eq rfl rfl) (fun _ hk => hk.congr rfl rfl) fun {d} ho => by
    have hed : e ≠ d := fun he => ho (congrArg some he)
    simp [Graph.drop, hed])

theorem finish (g : Graph B V W) (e : EffectId) : g.Spares (some e) (g.finish e) := by
  have popped : g.Spares (some e) g.pop := of_eq rfl rfl rfl
  cases hx : g.effects[e]? with
  | none =>
    simp only [Graph.finish, hx]
    exact popped
  | some x =>
    cases hd : x.disposed with
    | true =>
      simp only [Graph.finish, hx, hd, if_true]
      exact popped.trans (setEffect g.pop e _)
    | false =>
      rw [finish_eq hx hd]
      have attached := popped.trans (attach e x.epoch g.reads g.pop)
      have set := attached.trans (setEffect _ e (ended x (g.pop.attach e x.epoch g.reads).1))
      rw [attach_effects] at set
      exact set.trans (of_eq rfl rfl rfl)

end Spares
end StoryPreview.Reactive.Graph
