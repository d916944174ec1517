import StoryPreview.Proofs.Runs
/-!
The last start wins. A cycle that waits while another starts, or while the preview is disposed of,
does nothing any more but report; so what comes of the preview is what would have come of it if such
cycles had never been resumed.
-/
namespace StoryPreview
open Reactive Program
namespace App

def Use.started? : Use → Option String
  | .start name => some name
  | _ => none

def Step.ofOther (last : Option String) : Step → Bool
  | .resume name => last != some name
  | _ => false

namespace Desk
variable {last : Option String} {d : Desk} {g g' : System}

abbrev Sound₀ (d : Desk) (g : System) : Prop := d.Sound (fun _ => False) g

/-- Resuming the cycle of a name, if one waits, changes nothing: it is found stale, or its module is
still not there. -/
def Inert (d : Desk) (g : System) (name : String) : Prop :=
  ∀ c, d.cycles.get? name = some c → ∃ reply d' g', App.perform (d.step (.resume name)) g =
    some ((reply, d'), g') ∧
    g.Reports g' ∧ (reply = .ended .stale ∨ c.path ∈ g.world.page.held ∧ reply = .pending)

/-- All cycles that wait are older than the generation, but for the last. -/
structure Past (last : Option String) (d : Desk) (g : System) : Prop where
  sound : d.Sound₀ g
  older : ∀ {name : String} {c : Controller.Cycle}, d.cycles.get? name = some c → last ≠ some name →
    c.token.issued < g.world.generation.current

theorem Past.stale (h : d.Past last g) {name : String} {c : Controller.Cycle}
    (hc : d.cycles.get? name = some c) (hn : last ≠ some name) :
    g.world.generation.isCurrent c.token = false :=
  Generation.isCurrent_false_iff.2 (Nat.ne_of_lt (h.older hc hn))

/-- A superseding step leaves every other cycle in the past. -/
theorem Sound.supersede (h : d.Sound₀ g) {u : Use} (hu : (Step.use u).Supersedes)
    (ho : g.world.isOpen = true) : (d.step (.use u)).Done g fun r g' => r.2.Past u.started? g' := by
  refine (h.step (.use u)).imp ?_
  rintro r g' ⟨sound, onward⟩
  refine ⟨sound.mono fun _ => False.elim, fun hc hn => ?_⟩
  obtain ⟨last, ordered⟩ := h.attended.cycles
  rcases onward.cycles hc with heq | hc
  · cases heq
    exact absurd rfl hn
  · exact Nat.lt_of_le_of_lt (ordered hc).1 (onward.superseded hu ho)

theorem Past.step (h : d.Past last g) {s : Step} (hs : ¬ s.Supersedes) :
    (d.step s).Done g fun r g' => r.2.Past last g' := by
  refine (h.sound.step s).imp ?_
  rintro r g' ⟨sound, onward⟩
  refine ⟨sound.mono fun _ => False.elim, fun hc hn => ?_⟩
  rcases onward.cycles hc with rfl | hc
  · exact absurd trivial hs
  · exact Nat.lt_of_lt_of_le (h.older hc hn) onward.generation

/-- What resuming a cycle of the past does. -/
theorem Past.resume (h : d.Past last g) {name : String} (hn : last ≠ some name)
    {c : Controller.Cycle} (hc : d.cycles.get? name = some c) :
    (d.step (.resume name)).Done g fun r g' => g.Reports g' ∧
      r = d.ofProgress name (if c.path ∈ g.world.page.held then .pending c else .ended .stale) := by
  simp only [Desk.step, hc, Action.Done, ends_bind]
  refine (resume_stale d.app.controller (h.stale hc hn)).imp ?_
  rintro p g' ⟨reports, hp⟩
  refine ends_pure.2 ⟨reports, ?_⟩
  rw [hp]

theorem Past.inert (h : d.Past last g) {name : String} (hn : last ≠ some name) :
    d.Inert g name := by
  intro c hc
  obtain ⟨⟨reply, d'⟩, g', run, reports, hr⟩ := h.resume hn hc
  refine ⟨reply, d', g', run, reports, ?_⟩
  split at hr
  · rename_i held
    exact .inr ⟨held, congrArg Prod.fst hr⟩
  · exact .inl (congrArg Prod.fst hr)

/-- Desks that differ in the cycles they keep take a plain step alike. -/
theorem plain_congr {s : Step} (hs : s.IsPlain) {Q : Reply × Desk → System → Prop}
    (h : (d.step s).Done g Q) (cycles : Entries Controller.Cycle) :
    ({ d with cycles := cycles }.step s).Done g fun r g' =>
      ∃ r₀, Q r₀ g' ∧ r = (r₀.1, { r₀.2 with cycles := cycles }) := by
  have same (reply : Reply) (d₀ : Desk) {k : System} (hq : Q (reply, d₀) k) :
      ∃ r₀, Q r₀ k ∧ (reply, { d₀ with cycles := cycles }) =
        (r₀.1, { r₀.2 with cycles := cycles }) :=
    ⟨(reply, d₀), hq, rfl⟩
  cases s with
  | use u =>
    simp only [Desk.step, Action.Done, ends_bind, Action.ends_state] at h ⊢
    split
    · rename_i ho
      rw [if_pos ho] at h
      cases u with
      | visit => exact hs.elim
      | start name => exact hs.elim
      | dispose => exact hs.elim
      | settings => exact ends_pure.2 (same _ d (ends_pure.1 h))
      | bound =>
        simp only [Desk.use, ends_bind, Action.ends_state] at h ⊢
        split at h
        · exact ends_pure.2 (same _ d (ends_pure.1 h))
        · obtain ⟨x, hx, h⟩ := ends_inspect.1 h
          exact ends_inspect.2 ⟨x, hx, ends_pure.2 (same _ d (ends_pure.1 h))⟩
      | keep name =>
        simp only [Desk.use, ends_bind, Action.ends_state] at h ⊢
        split at h
        · exact ends_pure.2 (same _ d (ends_pure.1 h))
        · exact ends_pure.2 (same _ { d with kept := _ } (ends_pure.1 h))
      | watch name view =>
        simp only [Desk.use, ends_bind] at h ⊢
        refine h.imp fun e k h => ?_
        split at h
        · exact ends_drop.2 (ends_pure.2
            (same _ { d with watchers := _ } (ends_pure.1 (ends_drop.1 h))))
        · exact ends_pure.2 (same _ { d with watchers := _ } (ends_pure.1 h))
      | _ =>
        simp only [Desk.use, ends_bind] at h ⊢
        exact h.imp fun x k h => ends_pure.2 (same _ d (ends_pure.1 h))
    · rename_i ho
      rw [if_neg ho] at h
      exact ends_pure.2 (same _ d (ends_pure.1 h))
  | page c =>
    simp only [Desk.step, Action.Done, ends_bind] at h ⊢
    exact h.imp fun x k h => ends_pure.2 (same _ d (ends_pure.1 h))
  | resume name => exact hs.elim
  | close => exact hs.elim
  | setTheme t =>
    simp only [Desk.step, Action.Done, ends_bind] at h ⊢
    exact h.imp fun x k h => ends_pure.2 (same _ d (ends_pure.1 h))
  | setArguments name args =>
    simp only [Desk.step] at h ⊢
    split at h
    · exact ends_pure.2 (same _ d (ends_pure.1 h))
    · refine ends_bind.2 ((ends_bind.1 h).imp fun x k h => ?_)
      obtain ⟨x, hx, h⟩ := ends_inspect.1 h
      exact ends_inspect.2 ⟨x, hx, ends_pure.2 (same _ d (ends_pure.1 h))⟩
  | unwatch name =>
    simp only [Desk.step] at h ⊢
    split at h
    · exact ends_pure.2 (same _ d (ends_pure.1 h))
    · exact ends_drop.2
        (ends_pure.2 (same _ { d with watchers := _ } (ends_pure.1 (ends_drop.1 h))))

/-- Two previews that differ only in cycles of the past and in what has been reported. -/
structure Beside (last : Option String) (d : Desk) (g : System) (d' : Desk) (g' : System) :
    Prop where
  same : d' = { d with cycles := d'.cycles }
  distinct : d.cycles.keys.Nodup ∧ d'.cycles.keys.Nodup
  agree : ∀ name, last = some name → d'.cycles.get? name = d.cycles.get? name
  reports : g.Reports g'

theorem Beside.refl (h : d.cycles.keys.Nodup) : d.Beside last g d g :=
  ⟨rfl, ⟨h, h⟩, fun _ _ => rfl, .refl g⟩

variable {d' : Desk}

theorem app_discreet : Discreet App.doer := discreet_perform App.meaning depthLimit

/-- What resuming a cycle of the past leaves is beside what there was. -/
theorem Beside.resumed (h : d.Beside last g d' g') {name : String} (hn : last ≠ some name)
    {p : Controller.Progress} {c : Controller.Cycle} (hc : d.cycles.get? name = some c)
    (hp : ∀ c', p = .pending c' → c' = c) {k : System} (hk : g.Reports k) :
    (d.ofProgress name p).2.Beside last k d' g' := by
  have reports : k.Reports g' := hk.symm.trans h.reports
  cases p with
  | pending c' =>
    obtain rfl := hp c' rfl
    have same : { d with cycles := d.cycles.insert name c' } = d := by rw [Entries.insert_self hc]
    rw [ofProgress, same]
    exact ⟨h.same, h.distinct, h.agree, reports⟩
  | ended o =>
    refine ⟨h.same, ⟨Entries.keys_erase_nodup h.distinct.1 name, h.distinct.2⟩, fun name' hl => ?_,
      reports⟩
    have other : name ≠ name' := by
      rintro rfl
      exact hn hl
    rw [h.agree name' hl, ofProgress, Entries.get?_erase h.distinct.1, if_neg other]

theorem Beside.ofProgress (h : d.Beside last g d' g') {k k' : System} (hk : k.Reports k')
    (name : String) (p : Controller.Progress) : (d.ofProgress name p).1 = (d'.ofProgress name p).1 ∧
      (d.ofProgress name p).2.Beside last k (d'.ofProgress name p).2 k' := by
  have same := h.same
  cases p with
  | pending c =>
    refine ⟨rfl, by rw [Desk.ofProgress, same]; rfl, ⟨Entries.nodup_insert h.distinct.1 _ _,
      Entries.nodup_insert h.distinct.2 _ _⟩, fun name' hl => ?_, hk⟩
    simp only [Desk.ofProgress, Entries.get?_insert, h.agree name' hl]
  | ended o =>
    refine ⟨rfl, by rw [Desk.ofProgress, same]; rfl, ⟨Entries.keys_erase_nodup h.distinct.1 _,
      Entries.keys_erase_nodup h.distinct.2 _⟩, fun name' hl => ?_, hk⟩
    simp only [Desk.ofProgress]
    rw [Entries.get?_erase h.distinct.1, Entries.get?_erase h.distinct.2, h.agree name' hl]

/-- Both take a step alike that is not about a cycle of the past. -/
theorem Past.step_beside (h : d.Past last g) (hb : d.Beside last g d' g') {s : Step}
    (hs : ¬ s.Supersedes) (ho : s.ofOther last = false) :
    (d.step s).Done g fun r k => r.2.Past last k ∧
      (d'.step s).Done g' fun r' k' => r'.1 = r.1 ∧ r.2.Beside last k r'.2 k' := by
  refine (h.step hs).and ?_
  obtain ⟨same, distinct, agree, reports⟩ := hb
  have app : d'.app = d.app := by rw [same]
  -- A plain step does not look at the cycles, so it does the same with those of the other desk.
  by_cases plain : s.IsPlain
  · obtain ⟨r, k, run, stays⟩ := h.sound.plain plain
    refine ⟨r, k, run, ?_⟩
    have alike :=
      plain_congr plain (Q := fun r₀ k₀ => r₀ = r ∧ k₀ = k) ⟨r, k, run, rfl, rfl⟩ d'.cycles
    rw [← same] at alike
    refine (alike.reports app_discreet reports).imp ?_
    rintro r₁ k₁ ⟨k₀, reports₁, r₀, ⟨hr₀, hk₀⟩, hr₁⟩
    subst hr₀ hk₀ hr₁
    exact ⟨rfl, rfl, ⟨stays.cycles ▸ distinct.1, distinct.2⟩,
      fun n hn => by rw [agree n hn, stays.cycles], reports₁⟩
  cases s with
  | use u => cases u <;> first | exact absurd trivial plain | exact absurd trivial hs
  | resume name =>
    have hl : last = some name := by simpa [Step.ofOther] using ho
    have hc' : d'.cycles.get? name = d.cycles.get? name := agree name hl
    simp only [Desk.step, hc']
    cases hc : d.cycles.get? name with
    | none => exact ends_pure.2 (ends_pure.2 ⟨rfl, same, distinct, agree, reports⟩)
    | some c =>
      obtain ⟨p, k, run, -⟩ := h.sound.resume hc
      refine ends_bind.2 ⟨p, k, run, ends_pure.2 (ends_bind.2 ?_)⟩
      rw [app]
      refine (Program.Ends.reports (Q := fun p' k' => p' = p ∧ k' = k) app_discreet reports
        ⟨p, k, run, rfl, rfl⟩).imp ?_
      rintro p₁ k₁ ⟨k₀, reports₁, hp₁, hk₀⟩
      refine ends_pure.2 ?_
      subst hp₁ hk₀
      obtain ⟨reply, beside⟩ := Beside.ofProgress ⟨same, distinct, agree, reports⟩ reports₁ name p₁
      exact ⟨reply.symm, beside⟩
  | close =>
    simp only [Desk.step, Action.Done, ends_bind, Action.ends_state, app, reports.world]
    by_cases opened : g.world.isOpen = true
    · simp only [if_pos opened]
      obtain ⟨x, k, run, -⟩ := h.sound.close
      refine ends_bind.2 ⟨x, k, run, ends_pure.2 (ends_bind.2 ?_)⟩
      refine (Program.Ends.reports (Q := fun _ k' => k' = k) app_discreet reports
        ⟨x, k, run, rfl⟩).imp ?_
      rintro _ k₁ ⟨k₀, reports₁, hk₀⟩
      refine ends_pure.2 ?_
      subst hk₀
      exact ⟨rfl, by rw [same], ⟨.nil, .nil⟩, fun _ _ => rfl, reports₁⟩
    · simp only [if_neg opened]
      exact ends_pure.2 (ends_pure.2 ⟨rfl, same, distinct, agree, reports⟩)
  | _ => exact absurd trivial plain

/-- A run, and the same run without the steps about cycles of the past: what they give at the end
differs in nothing but cycles of the past and what has been reported. -/
theorem Past.run_beside (h : d.Past last g) (hb : d.Beside last g d' g') {steps : List Step}
    (hs : ∀ s ∈ steps, ¬ s.Supersedes) : (d.run steps).Done g fun r k => r.2.Past last k ∧
      (d'.run (steps.filter fun s => !s.ofOther last)).Done g' fun r' k' =>
        r.2.Beside last k r'.2 k' := by
  induction steps generalizing d g d' g' with
  | nil => exact done_run_nil.2 ⟨h, done_run_nil.2 hb⟩
  | cons s steps ih =>
    have rest : ∀ x ∈ steps, ¬ x.Supersedes := fun x hx => hs x (List.mem_cons_of_mem _ hx)
    have first := hs s List.mem_cons_self
    rw [done_run_cons]
    cases ho : s.ofOther last with
    | false =>
      refine (h.step_beside hb first ho).imp ?_
      rintro r k ⟨past, beside⟩
      obtain ⟨r', k', run', -, beside⟩ := beside
      refine (ih past beside rest).imp ?_
      rintro r₁ k₁ ⟨past₁, beside₁⟩
      refine ⟨past₁, ?_⟩
      rw [List.filter_cons_of_pos (by simp [ho]), done_run_cons]
      exact ⟨r', k', run', beside₁⟩
    | true =>
      have skipped : (s :: steps).filter (fun s => !s.ofOther last) = steps.filter fun s =>
          !s.ofOther last :=
        List.filter_cons_of_neg (by simp [ho])
      rw [skipped]
      cases s with
      | resume name =>
        have hn : last ≠ some name := by simpa [Step.ofOther] using ho
        cases hc : d.cycles.get? name with
        | none =>
          simp only [Desk.step, hc]
          exact ends_pure.2 (ih h hb rest)
        | some c =>
          refine ((h.step first).and (h.resume hn hc)).imp ?_
          rintro r k ⟨past, reports, hr⟩
          refine ih past ?_ rest
          rw [hr]
          refine hb.resumed hn hc (fun c' hp => ?_) reports
          split at hp
          · exact (Controller.Progress.pending.inj hp).symm
          · cases hp
      | _ => cases ho

structure Idle (d : Desk) (g : System) : Prop where
  past : d.Past none g
  status : g.world.status = .idle
  bindings : g.world.bindings = none

theorem Idle.step (h : d.Idle g) {s : Step} (hs : ¬ s.Supersedes) :
    (d.step s).Done g fun r k => r.2.Idle k := by
  suffices kept : (d.step s).Done g fun _ k =>
      k.world.status = g.world.status ∧ (g.world.bindings = none → k.world.bindings = none) by
    refine ((h.past.step hs).and kept).imp ?_
    rintro r k ⟨past, status, bindings⟩
    exact ⟨past, status.trans h.status, bindings h.bindings⟩
  by_cases plain : s.IsPlain
  · exact (h.past.sound.plain plain).imp fun r k stays =>
      ⟨stays.keeps.status, fun hb => stays.keeps.bindings.trans hb⟩
  cases s with
  | use u => cases u <;> first | exact absurd trivial plain | exact absurd trivial hs
  | resume name =>
    cases hc : d.cycles.get? name with
    | none =>
      simp only [Desk.step, hc]
      exact ends_pure.2 ⟨rfl, id⟩
    | some c =>
      refine (h.past.resume (by simp) hc).imp ?_
      rintro r k ⟨reports, _⟩
      rw [reports.world]
      exact ⟨rfl, id⟩
  | close =>
    simp only [Desk.step, Action.Done, ends_bind, Action.ends_state]
    split
    · refine ends_bind.2 (h.past.sound.close.imp ?_)
      rintro _ k ⟨_, world⟩
      refine ends_pure.2 ?_
      rw [world]
      exact ⟨rfl, fun _ => rfl⟩
    · exact ends_pure.2 ⟨rfl, id⟩
  | _ => exact absurd trivial plain

theorem Idle.run (h : d.Idle g) {steps : List Step} (hs : ∀ s ∈ steps, ¬ s.Supersedes) :
    (d.run steps).Done g fun r k => r.2.Idle k := by
  induction steps generalizing d g with
  | nil => exact done_run_nil.2 h
  | cons s steps ih =>
    exact done_run_cons.2 ((h.step (hs s List.mem_cons_self)).imp fun r k idle =>
      ih idle fun x hx => hs x (List.mem_cons_of_mem _ hx))

theorem Idle.free (h : d.Idle g) : Free g := by
  rcases h.past.sound.standing with free | ⟨b, story, bound⟩
  · exact free
  · exact absurd (h.bindings.symm.trans bound.bindings) (by simp)

theorem Sound.idle (h : d.Sound₀ g) (ho : g.world.isOpen = true) :
    (d.step (.use .dispose)).Done g fun r k => r.2.Idle k := by
  have disposed : (d.step (.use .dispose)).Done g fun _ k =>
      k.world.status = .idle ∧ k.world.bindings = none := by
    simp only [Desk.step, Action.Done, ends_bind, Action.ends_state, if_pos ho, Desk.use]
    refine h.dispose.imp ?_
    rintro _ k ⟨_, world⟩
    refine ends_pure.2 ?_
    rw [world]
    exact ⟨rfl, rfl⟩
  refine ((h.supersede (u := .dispose) trivial ho).and disposed).imp ?_
  rintro r k ⟨past, status, bindings⟩
  exact ⟨past, status, bindings⟩

/-- Whatever has been done before, and whatever is done after a start or a disposal that starts
nothing and disposes of nothing: resuming another cycle than that of the start changes nothing; the
preview is as it would be if no other cycle had been resumed; and after a disposal it is idle. -/
theorem last_start_wins (s : Settings) (p : Page) (before after : List Step) {u : Use}
    (hu : (Step.use u).Supersedes) (ha : ∀ x ∈ after, ¬ x.Supersedes) :
    ∃ replies d g, App.perform (life s before) p.blank = some ((replies, d), g) ∧
    (g.world.isOpen = true →
      ∃ reply d₁ g₁, App.perform (d.step (.use u)) g = some ((reply, d₁), g₁) ∧
      ∃ replies₂ d₂ g₂, App.perform (d₁.run after) g₁ = some ((replies₂, d₂), g₂) ∧
        (∀ name, u.started? ≠ some name → d₂.Inert g₂ name) ∧
        (∃ replies₃ d₃ g₃, App.perform (d₁.run (after.filter fun x => !x.ofOther u.started?)) g₁ =
          some ((replies₃, d₃), g₃) ∧ g₂.Reports g₃) ∧
        (u = .dispose → g₂.world.status = .idle ∧ g₂.world.bindings = none ∧ g₂.world.bound = none ∧
          g₂.world.address = none)) := by
  have fresh : p.Fresh fun _ => False := ⟨False.elim, False.elim⟩
  obtain ⟨⟨replies, d⟩, g, run, sound, -⟩ := life_sound fresh s before fun _ _ _ h => h.elim
  refine ⟨replies, d, g, run, fun ho => ?_⟩
  obtain ⟨⟨reply, d₁⟩, g₁, run₁, past⟩ := sound.supersede hu ho
  refine ⟨reply, d₁, g₁, run₁, ?_⟩
  obtain ⟨⟨replies₂, d₂⟩, g₂, run₂, past₂, ⟨replies₃, d₃⟩, g₃, run₃, beside⟩ :=
    past.run_beside (.refl past.sound.attended.distinct) ha
  refine ⟨replies₂, d₂, g₂, run₂, fun name hn => past₂.inert hn,
    ⟨replies₃, d₃, g₃, run₃, beside.reports⟩, ?_⟩
  rintro rfl
  have idle : d₁.Idle g₁ := (sound.idle ho).of_run run₁
  have idle₂ : d₂.Idle g₂ := (idle.run ha).of_run run₂
  exact ⟨idle₂.status, idle₂.bindings, idle₂.free.bound, idle₂.free.address⟩

/-- Two cycles wait for one module, and the first is resumed last. -/
theorem last_start_wins_sample : ∃ replies d g,
    App.perform (life {} [.page (.hold "/s.js"), .use (.start "first")])
      (Page.sample Config.sample (.object [])).blank =
      some ((replies, d), g) ∧
    ∃ reply d₁ g₁, App.perform (d.step (.use (.start "second"))) g = some ((reply, d₁), g₁) ∧
    ∃ replies₂ d₂ g₂, App.perform (d₁.run [.page (.release "/s.js"), .resume "second",
      .resume "first"]) g₁ =
        some ((replies₂, d₂), g₂) ∧ d₂.Inert g₂ "first" ∧
      ∃ replies₃ d₃ g₃, App.perform (d₁.run [.page (.release "/s.js"), .resume "second"]) g₁ =
        some ((replies₃, d₃), g₃) ∧ g₂.Reports g₃ := by
  obtain ⟨replies, d, g, run, rest⟩ := last_start_wins {} (Page.sample Config.sample (.object []))
    [.page (.hold "/s.js"), .use (.start "first")] [.page (.release "/s.js"), .resume "second",
      .resume "first"]
    (u := .start "second") trivial (by simp [Step.Supersedes])
  have opened : (App.perform (life {} [.page (.hold "/s.js"), .use (.start "first")])
      (Page.sample Config.sample (.object [])).blank).map (fun r => r.2.world.isOpen) =
        some true := by
    decide +kernel
  rw [run] at opened
  obtain ⟨reply, d₁, g₁, run₁, replies₂, d₂, g₂, run₂, inert, others, -⟩ :=
    rest (Option.some.inj opened)
  exact ⟨replies, d, g, run, reply, d₁, g₁, run₁, replies₂, d₂, g₂, run₂, inert "first" (by decide),
    others⟩

end Desk
end App
end StoryPreview
