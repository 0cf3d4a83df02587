import IndexCoordinator.Proofs.Service.Section

/-!
# Succession of cycles

Cycles become pending one after the other, and some of them become current.  A cycle is in play
while it is current, pending, or about to be put into one of these places; who falls out of play
never comes back.

* `Run.InPlay`               the cycles in play, with `Run.InPlay.of_step`;
* `Coordinator.Settled`      what everyone sees who takes the lock;
* `Execution.Promotes`       a promotion: one section finds the cycle pending with its build ended,
                             and makes it current;
* `Execution.succession`     all of this for every execution of a service.
-/

namespace IndexCoordinator

/-- executions of a service with its first cycle and any callers -/
abbrev Services :=
  Execution Job.next Job.Begins fun w => ∃ settings, w = Coordinator.start settings

namespace Coordinator

def IsOpen (w : Coordinator) (k : Nat) : Prop :=
  ∀ c, w.cycle? k = some c → c.isShutdownRequested = false

/-- what everyone sees who takes the lock -/
structure Settled (w : Coordinator) : Prop where
  issued : w.service.clock.issued = w.cycles.length
  generation : ∀ k c, w.cycle? k = some c → c.generation = k + 1
  current : ∃ c, w.current? = some c
  pending : ∀ p, w.service.pending = some p → ∃ c, w.cycle? p = some c
  below : ∀ c p, w.current? = some c → w.pending? = some p → c.generation < p.generation
  retired : ∀ k c, w.cycle? k = some c → k ≠ w.service.current → w.service.pending ≠ some k →
    c.isShutdownRequested = true
  closed : w.service.shutDown = true →
    w.service.pending = none ∧ ∀ c ∈ w.cycles, c.isShutdownRequested = true

theorem Ordered.exists_current {w : Coordinator} (h : w.Ordered) : ∃ c, w.current? = some c :=
  ⟨_, List.getElem?_eq_getElem h.current⟩

theorem Ordered.generation_current {w : Coordinator} (h : w.Ordered) {c : Cycle}
    (hc : w.current? = some c) : c.generation = w.service.current + 1 :=
  h.generation _ c hc

end Coordinator

namespace Job

def operation? : Job → Option Operation
  | .work _ (.call k) => some k.operation
  | .lookingUp k => some k.operation
  | .loading k => some k.operation
  | _ => none

section
variable {fired : Bool} {answer : Answering} {w : Coordinator} {j : Job}
  {q : Progress Coordinator Job}

theorem inside_of_coming {k : Nat} (h : j.coming = some k) :
    j.inside = true ∧ j.going = none := by
  unfold coming at h
  split at h <;> cases h <;> exact ⟨rfl, rfl⟩

theorem Moves.inPlay (h : Moves fired answer w j q) {k : Nat}
    (hk : q.shared.service.current = k ∨ q.shared.service.pending = some k ∨
      q.self.coming = some k) :
    (w.service.current = k ∨ w.service.pending = some k ∨ j.coming = some k) ∨
      k = w.cycles.length := by
  cases h with
  | acquire _ h =>
    unfold afterLock at h
    split at h <;> cases h <;> obtain hk | hk | hk := hk <;>
      first | exact .inl (.inl hk) | exact .inl (.inr (.inl hk)) | cases hk
  | release h =>
    unfold afterUnlock at h
    split at h <;> cases h <;> obtain hk | hk | hk := hk <;>
      first | exact .inl (.inl hk) | exact .inl (.inr (.inl hk)) | cases hk
  | create =>
    obtain hk | hk | hk := hk
    · exact .inl (.inl hk)
    · exact .inl (.inr (.inl hk))
    · exact .inr (Option.some.inj hk).symm
  | replace | install =>
    obtain hk | hk | hk := hk
    · exact .inl (.inl hk)
    · exact .inl (.inr (.inr hk))
    · cases hk
  | take hp =>
    obtain hk | hk | hk := hk
    · exact .inl (.inl hk)
    · cases hk
    · exact .inl (.inr (.inl (hp.trans hk)))
  | swap =>
    obtain hk | hk | hk := hk
    · exact .inl (.inr (.inr (congrArg some hk)))
    · exact .inl (.inr (.inl hk))
    · cases hk
  | drop | clear =>
    obtain hk | hk | hk := hk
    · exact .inl (.inl hk)
    · cases hk
    · cases hk
  | supersede h | superseded h | retire h | retired h | abandon h | dropped h | stop h
  | stopped h =>
    rw [h.aside.service] at hk
    exact .inl hk
  | _ => exact .inl hk

theorem Moves.coming_spawned (h : Moves fired answer w j q) :
    ∀ x ∈ q.spawned, x.coming = none := by
  intro x hx
  obtain ⟨i, g, rfl⟩ | ⟨i, m, rfl⟩ | ⟨next, rfl⟩ := h.spawned x hx <;> rfl

theorem Moves.operation (h : Moves fired answer w j q) :
    (q.self.operation? = none ∨ q.self.operation? = j.operation?) ∧
      ∀ x ∈ q.spawned, x.operation? = none := by
  refine ⟨?_, fun x hx => ?_⟩
  · cases h with
    | @work i k c q hc hq =>
      show (Job.work i q.self).operation? = none ∨ (Job.work i q.self).operation? = _
      cases hself : q.self with
      | call k' =>
        obtain ⟨k, rfl, ho⟩ := (Work.of_next hq).2.operation hself
        exact .inr (congrArg some ho)
      | _ => exact .inl rfl
    | acquire _ h =>
      unfold afterLock at h
      split at h <;> cases h <;> exact .inl rfl
    | release h =>
      unfold afterUnlock at h
      split at h <;> cases h <;> exact .inl rfl
    | passOn | lookUp => exact .inr rfl
    | _ => exact .inl rfl
  · obtain ⟨i, g, rfl⟩ | ⟨i, m, rfl⟩ | ⟨next, rfl⟩ := h.spawned x hx <;> rfl

theorem Moves.isOpen (h : Moves fired answer w j q) (hj : j.operation? ≠ some .shutDown)
    (hs : j.inside = true → w.Section j) (hopen : w.service.shutDown = false) {k : Nat}
    (hgo : j.going ≠ some k) (hk : w.IsOpen k) : q.shared.IsOpen k := by
  have hset {i : Nat} {c c' : Cycle} (hc : w.cycle? i = some c)
      (he : c'.isShutdownRequested = c.isShutdownRequested) : (w.setCycle i c').IsOpen k := by
    intro x hx
    by_cases e : i = k
    · subst e
      obtain rfl := Option.some.inj ((Coordinator.cycle?_setCycle_self hc c').symm.trans hx)
      exact he.trans (hk c hc)
    · rw [w.cycle?_setCycle_ne c' e] at hx
      exact hk x hx
  have hshut {i : Nat} {s : Shutdown} {w' : Coordinator} {again : Option Shutdown}
      (h : w.Shuts i s w' again) (hi : some i ≠ some k) : w'.IsOpen k := by
    cases h with
    | missing => exact hk
    | found hc _ =>
      intro x hx
      rw [w.cycle?_setCycle_ne _ fun e => hi (congrArg some e)] at hx
      exact hk x hx
  have hclosed {P : Prop} (h : w.service.shutDown = true) : P := by
    rw [hopen] at h
    cases h
  cases h with
  | @work i l c q hc hq =>
    have heffect := (Work.of_next hq).1
    refine hset hc (heffect.isShutdownRequested fun s hl => hj ?_)
    rw [hl]
    rfl
  | create =>
    intro x hx
    obtain hx | ⟨_, rfl⟩ := Coordinator.cycle?_issue hx
    · exact hk x hx
    · rfl
  | submit hc h | submitted hc h => exact hset hc (Submission.keeps h).2
  | supersede h | superseded h | retire h | retired h | abandon h | dropped h => exact hshut h hgo
  | stop | stopped => exact hclosed (hs rfl).1
  | _ => exact hk

theorem Moves.current (h : Moves fired answer w j q) :
    q.shared.service.current = w.service.current ∨
      ∃ next, j = .promoting next .swapping ∧ q.shared.service.current = next ∧
        q.self.inside = true := by
  cases h with
  | swap => exact .inr ⟨_, rfl, rfl, rfl⟩
  | supersede h | superseded h | retire h | retired h | abandon h | dropped h | stop h
  | stopped h => exact .inl (by rw [h.aside.service])
  | _ => exact .inl rfl

theorem Moves.swapping (h : Moves fired answer w j q) {next : Nat}
    (hq : q.self = .promoting next .swapping) :
    j = .promoting next .comparing ∧ w.service.pending = some next := by
  cases h with
  | take hp =>
    cases hq
    exact ⟨rfl, hp⟩
  | acquire _ h =>
    unfold afterLock at h
    split at h <;> cases h <;> cases hq
  | release h =>
    unfold afterUnlock at h
    split at h <;> cases h <;> cases hq
  | _ => cases hq

end

end Job

namespace Run

/-- a cycle is current, pending, or about to be put into one of these places -/
def InPlay (r : Run Coordinator Job) (k : Nat) : Prop :=
  r.shared.service.current = k ∨ r.shared.service.pending = some k ∨
    ∃ j ∈ r.procs, j.coming = some k

/-- **Only new cycles come into play.** -/
theorem InPlay.of_step {r r' : Run Coordinator Job} (hst : Step Job.next r r') {k : Nat}
    (h : r'.InPlay k) : r.InPlay k ∨ k = r.shared.cycles.length := by
  obtain ⟨i, j, fired, answer, q, hj, hq, rfl⟩ := hst.exists_under
  have hm := Job.moves_of_next hq
  have hmem := List.mem_of_getElem? hj
  obtain ⟨others, hp, hp'⟩ := exists_others hj
  have hcases : (q.shared.service.current = k ∨ q.shared.service.pending = some k ∨
      q.self.coming = some k) ∨ ∃ x ∈ r.procs, x.coming = some k := by
    obtain h | h | ⟨x, hx, hk⟩ := h
    · exact .inl (.inl h)
    · exact .inl (.inr (.inl h))
    · obtain rfl | hx := List.mem_cons.mp ((hp' q).mem_iff.mp hx)
      · exact .inl (.inr (.inr hk))
      · obtain hx | hx := List.mem_append.mp hx
        · exact .inr ⟨x, hp.mem_iff.mpr (List.mem_cons_of_mem _ hx), hk⟩
        · rw [hm.coming_spawned x hx] at hk
          cases hk
  obtain h | h := hcases
  · obtain (h | h | h) | h := hm.inPlay h
    · exact .inl (.inl h)
    · exact .inl (.inr (.inl h))
    · exact .inl (.inr (.inr ⟨j, hmem, h⟩))
    · exact .inr h
  · exact .inl (.inr (.inr h))

theorem InPlay.of_invoke {r : Run Coordinator Job} {j : Job} (hj : Job.Begins r.shared j)
    {k : Nat} (h : (r.invoke j).InPlay k) : r.InPlay k := by
  obtain h | h | ⟨x, hx, hk⟩ := h
  · exact .inl h
  · exact .inr (.inl h)
  · obtain hx | hx := List.mem_append.mp hx
    · exact .inr (.inr ⟨x, hx, hk⟩)
    · obtain rfl := List.mem_singleton.mp hx
      obtain rfl | rfl | rfl | ⟨k, _, rfl⟩ | ⟨i, k, _, _, rfl⟩ := hj <;> cases hk

theorem InPlay.of_free {r : Run Coordinator Job} (ho : r.Orderly)
    (hl : r.shared.service.locked = false) {k : Nat} (h : r.InPlay k) :
    r.shared.service.current = k ∨ r.shared.service.pending = some k := by
  obtain h | h | ⟨x, hx, hk⟩ := h
  · exact .inl h
  · exact .inr h
  · have hin := (ho.of_free hl).2.2 x hx
    rw [(Job.inside_of_coming hk).1] at hin
    cases hin

theorem Orderly.settled {r : Run Coordinator Job} (h : r.Orderly)
    (hl : r.shared.service.locked = false) : r.shared.Settled := by
  obtain ⟨hretired, hclosed, _⟩ := h.of_free hl
  have ho := h.ordered
  refine ⟨ho.issued, ho.generation, ho.exists_current, fun p hp => ?_, fun c p hc hp => ?_,
    fun k c hc hcur hpend => ?_, hclosed.all_shut hretired⟩
  · exact ⟨_, List.getElem?_eq_getElem (ho.pending p hp).2⟩
  · obtain ⟨k, hk, hp⟩ := Option.bind_eq_some_iff.mp hp
    rw [ho.generation_current hc, ho.generation k p hp]
    exact Nat.succ_lt_succ (ho.pending k hk).1
  · exact hretired k hcur hpend (fun h => by cases h) c hc

theorem Orderly.of_going {r : Run Coordinator Job} (h : r.Orderly) {j : Job} (hj : j ∈ r.procs)
    {k : Nat} (hk : j.going = some k) (hopen : r.shared.service.shutDown = false) :
    ¬ r.InPlay k ∧ k < r.shared.cycles.length := by
  have hin : j.inside = true := by
    unfold Job.going at hk
    split at hk <;> cases hk <;> rfl
  have hs := h.section hj hin
  have hslots : r.shared.service.current ≠ k ∧ r.shared.service.pending ≠ some k ∧
      k < r.shared.cycles.length := by
    unfold Job.going at hk
    split at hk <;> cases hk
    · obtain ⟨_, hpend, hcur, hlt, _⟩ := hs
      refine ⟨Nat.ne_of_lt hcur, fun e => ?_, Nat.lt_trans hlt (h.ordered.pending _ hpend).2⟩
      exact Nat.ne_of_lt hlt (Option.some.inj (e.symm.trans hpend))
    · obtain ⟨_, hpend, hlt, _⟩ := hs
      refine ⟨(Nat.ne_of_lt hlt).symm, fun e => ?_, Nat.lt_trans hlt h.ordered.current⟩
      cases hpend.symm.trans e
    · rw [hs.1] at hopen
      cases hopen
  refine ⟨fun hplay => ?_, hslots.2.2⟩
  obtain hplay | hplay | ⟨x, hx, hcoming⟩ := hplay
  · exact hslots.1 hplay
  · exact hslots.2.1 hplay
  · obtain ⟨hxin, hgoing⟩ := Job.inside_of_coming hcoming
    obtain ⟨rfl, _⟩ := h.sole hj hx hin hxin
    rw [hgoing] at hk
    cases hk

/-- as long as the service is open, the cycles in play are -/
def Unharmed (r : Run Coordinator Job) : Prop :=
  r.shared.service.shutDown = false → ∀ k, r.InPlay k → r.shared.IsOpen k

theorem Unharmed.step {r r' : Run Coordinator Job} (h : r.Unharmed) (ho : r.Orderly)
    (hst : Step Job.next r r') (hcall : ∀ j ∈ r.procs, j.operation? ≠ some .shutDown) :
    r'.Unharmed := by
  intro hopen' k hk
  have hk' := hk.of_step hst
  obtain ⟨i, j, fired, answer, q, hj, hq, rfl⟩ := hst.exists_under
  have hm := Job.moves_of_next hq
  have hmem := List.mem_of_getElem? hj
  have hopen : r.shared.service.shutDown = false := by
    by_contra hs
    have hs' := hm.keeps.shutDown (Bool.not_eq_false _ ▸ hs)
    exact Bool.false_ne_true (hopen'.symm.trans hs')
  obtain hplay | rfl := hk'
  · exact hm.isOpen (hcall j hmem) (ho.section hmem) hopen
      (fun hg => (ho.of_going hmem hg hopen).1 hplay) (h hopen k hplay)
  · refine hm.isOpen (hcall j hmem) (ho.section hmem) hopen
      (fun hg => Nat.lt_irrefl _ (ho.of_going hmem hg hopen).2) fun c hc => ?_
    obtain ⟨hlt, _⟩ := List.getElem?_eq_some_iff.mp hc
    exact absurd hlt (Nat.lt_irrefl _)

end Run

namespace Execution

variable (E : Services)

/-- a promotion.  In one section under the lock process `i` finds the cycle `next` pending at
moment `u`, when its build has ended, and makes it current at moment `t` -/
structure Promotes (u t i next : Nat) : Prop where
  before : u < t
  reads : E.proc? u i = some (.promoting next .comparing)
  found : (E.cells u).service.pending = some next
  built : (E.cells u).IsBuilt next
  swaps : E.proc? t i = some (.promoting next .swapping)
  locked : ∀ v, u ≤ v → v ≤ t + 1 →
    (E.cells v).service.locked = true ∧ ∃ j, E.proc? v i = some j ∧ j.inside = true
  current : (E.cells (t + 1)).service.current = next

variable {E}

theorem orderly (t : Nat) : (E.run t).Orderly := (E.reachable t).orderly

theorem Moves.job {t i : Nat} {j : Job} {fired : Bool} {answer : Answering}
    {q : Progress Coordinator Job} (h : E.Moves t i j fired answer q) :
    Job.Moves fired answer (E.cells t) j q := Job.moves_of_next h.leads

theorem step_or (t : Nat) :
    Run.Step Job.next (E.run t) (E.run (t + 1)) ∨ E.run (t + 1) = E.run t ∨
      ∃ j, E.Enters t (E.run t).procs.length j ∧ Job.Begins (E.cells t) j ∧
        E.run (t + 1) = (E.run t).invoke j := by
  obtain h | ⟨j, he, hj, h⟩ | ⟨i, j, fired, answer, q, h⟩ := tick (E := E) t
  · exact .inr (.inl h)
  · exact .inr (.inr ⟨j, he, hj, h⟩)
  · rw [h.run]
    exact .inl (.of_under h.proc h.leads)

theorem keeps {t u : Nat} (h : t ≤ u) : (E.cells t).Keeps (E.cells u) := by
  induction u, h using Nat.le_induction with
  | base => exact Coordinator.keeps_of_cycles rfl rfl id
  | succ u _ ih =>
    obtain he | ⟨i, j, fired, answer, q, hm⟩ := cells_succ (E := E) u
    · rw [he]
      exact ih
    · rw [hm.cells_succ]
      exact ih.trans hm.job.keeps

theorem Moves.section {t i : Nat} {j : Job} {fired : Bool} {answer : Answering}
    {q : Progress Coordinator Job} (h : E.Moves t i j fired answer q) (hj : j.inside = true) :
    (E.cells t).Section j :=
  (orderly t).section (List.mem_of_getElem? h.proc) hj

theorem current_mono {t u : Nat} (h : t ≤ u) :
    (E.cells t).service.current ≤ (E.cells u).service.current := by
  induction u, h using Nat.le_induction with
  | base => exact Nat.le_refl _
  | succ u _ ih =>
    refine Nat.le_trans ih ?_
    obtain he | ⟨i, j, fired, answer, q, hm⟩ := cells_succ (E := E) u
    · exact Nat.le_of_eq (by rw [he])
    · rw [hm.cells_succ]
      obtain he | ⟨next, rfl, he, _⟩ := hm.job.current
      · exact Nat.le_of_eq he.symm
      · rw [he]
        exact Nat.le_of_lt (hm.section rfl).2.2.1

theorem current_of_shutDown {t u : Nat} (h : t ≤ u) (hs : (E.cells t).service.shutDown = true) :
    (E.cells u).service.current = (E.cells t).service.current := by
  induction u, h using Nat.le_induction with
  | base => rfl
  | succ u hu ih =>
    obtain he | ⟨i, j, fired, answer, q, hm⟩ := cells_succ (E := E) u
    · rw [he]
      exact ih
    · rw [hm.cells_succ]
      obtain he | ⟨next, rfl, _, _⟩ := hm.job.current
      · exact he.trans ih
      · have hopen := (hm.section rfl).1
        rw [(keeps hu).shutDown hs] at hopen
        cases hopen

theorem not_inPlay {t u : Nat} (h : t ≤ u) {k : Nat} (hk : k < (E.cells t).cycles.length)
    (hout : ¬ (E.run t).InPlay k) : ¬ (E.run u).InPlay k := by
  induction u, h using Nat.le_induction with
  | base => exact hout
  | succ u hu ih =>
    intro hplay
    obtain hst | he | ⟨j, _, hj, he⟩ := step_or (E := E) u
    · obtain hplay | rfl := hplay.of_step hst
      · exact ih hplay
      · obtain ⟨c, hc, _⟩ := (keeps hu).cycle _ _ (List.getElem?_eq_getElem hk)
        obtain ⟨hlt, _⟩ := List.getElem?_eq_some_iff.mp hc
        exact Nat.lt_irrefl _ hlt
    · rw [he] at hplay
      exact ih hplay
    · rw [he] at hplay
      exact ih (hplay.of_invoke hj)

theorem exists_found {t i next : Nat} (h : E.proc? t i = some (.promoting next .swapping)) :
    ∃ u, u < t ∧ E.proc? u i = some (.promoting next .comparing) ∧
      (E.cells u).service.pending = some next ∧
      ∀ v, u < v → v ≤ t → E.proc? v i = some (.promoting next .swapping) := by
  induction t with
  | zero => cases h
  | succ t ih =>
    obtain h' | ⟨j, fired, answer, q, hm, hq⟩ | ⟨_, hj⟩ | ⟨_, j, fired, answer, q, hm, hx, _⟩ :=
      proc_of_succ h
    · obtain ⟨u, hu, hreads, hfound, hsince⟩ := ih h'
      refine ⟨u, Nat.lt_succ_of_lt hu, hreads, hfound, fun v huv hv => ?_⟩
      obtain hv | rfl := Nat.lt_or_eq_of_le hv
      · exact hsince v huv (Nat.le_of_lt_succ hv)
      · exact h
    · obtain ⟨rfl, hpend⟩ := hm.job.swapping hq
      refine ⟨t, Nat.lt_succ_self t, hm.proc, hpend, fun v huv hv => ?_⟩
      obtain rfl : v = t + 1 := by omega
      exact h
    · obtain hj | hj | hj | ⟨k, _, hj⟩ | ⟨i, k, _, _, hj⟩ := hj <;> cases hj
    · obtain ⟨i, g, hx⟩ | ⟨i, m, hx⟩ | ⟨next, hx⟩ := hm.job.spawned _ hx <;> cases hx

/-- **The current cycle changes only by a promotion.** -/
theorem exists_promotes {t : Nat}
    (h : (E.cells (t + 1)).service.current ≠ (E.cells t).service.current) :
    ∃ u i next, E.Promotes u t i next := by
  obtain he | ⟨i, j, fired, answer, q, hm⟩ := cells_succ (E := E) t
  · rw [he] at h
    exact absurd rfl h
  · rw [hm.cells_succ] at h
    obtain he | ⟨next, rfl, he, hin⟩ := hm.job.current
    · exact absurd he h
    obtain ⟨u, hu, hreads, hfound, hsince⟩ := exists_found hm.proc
    have hbuilt := (orderly (E := E) u).built next _ (List.mem_of_getElem? hreads)
      (fun h => by cases h)
    have hinside : ∀ v, u ≤ v → v ≤ t + 1 → ∃ j, E.proc? v i = some j ∧ j.inside = true := by
      intro v huv hv
      obtain rfl | huv := Nat.eq_or_lt_of_le huv
      · exact ⟨_, hreads, rfl⟩
      obtain rfl | hv := Nat.eq_or_lt_of_le hv
      · exact ⟨_, hm.self_succ, hin⟩
      · exact ⟨_, hsince v huv (Nat.le_of_lt_succ hv), rfl⟩
    refine ⟨u, i, next, hu, hreads, hfound, hbuilt, hm.proc, fun v huv hv => ?_, ?_⟩
    · obtain ⟨j, hj, hjin⟩ := hinside v huv hv
      have hmem := List.mem_of_getElem? hj
      exact ⟨((orderly (E := E) v).sole hmem hmem hjin hjin).2, j, hj, hjin⟩
    · rw [hm.cells_succ]
      exact he

/-- no caller shuts a cycle down itself -/
def LeavesCycles (E : Services) : Prop :=
  ∀ t i k s, ¬ E.Enters t i (.work k (.call (.shuttingDown s)))

theorem LeavesCycles.operation (h : E.LeavesCycles) (t : Nat) :
    ∀ j ∈ (E.run t).procs, j.operation? ≠ some .shutDown := by
  induction t with
  | zero =>
    intro j hj
    cases hj
  | succ t ih =>
    intro j hj
    obtain ⟨i, hi⟩ := List.getElem?_of_mem hj
    obtain h' | ⟨j', fired, answer, q, hm, rfl⟩ | ⟨he, hb⟩ | ⟨_, j', fired, answer, q, hm, hx, _⟩ :=
      proc_of_succ (E := E) hi
    · exact ih j (List.mem_of_getElem? h')
    · obtain ho | ho := hm.job.operation.1
      · rw [ho]
        exact fun h => by cases h
      · rw [ho]
        exact ih j' (List.mem_of_getElem? hm.proc)
    · obtain rfl | rfl | rfl | ⟨k, hk, rfl⟩ | ⟨i', k, _, hk, rfl⟩ := hb
      · exact fun h => by cases h
      · exact fun h => by cases h
      · exact fun h => by cases h
      · intro ho
        unfold Job.IsLookup at hk
        split at hk <;> first | cases ho | exact hk
      · intro ho
        cases hk with
        | shutDown => exact h _ _ _ _ he
        | _ => cases ho
    · rw [hm.job.operation.2 j hx]
      exact fun h => by cases h

theorem LeavesCycles.unharmed (h : E.LeavesCycles) (t : Nat) : (E.run t).Unharmed := by
  induction t with
  | zero =>
    obtain ⟨settings, hs⟩ := E.isInitial
    intro _ k _ c hc
    rw [run_zero, hs] at hc
    rw [(Coordinator.cycle?_start hc).2]
    rfl
  | succ t ih =>
    obtain hst | he | ⟨j, _, hj, he⟩ := step_or (E := E) t
    · exact ih.step (orderly t) hst (h.operation t)
    · rw [he]
      exact ih
    · rw [he]
      exact fun hopen k hk => ih hopen k (hk.of_invoke hj)

/-- **Succession.**  In every execution of a service, with any changes, shutdowns, lookups and calls
on its cycles:

* the lock is held by the one process that stands in a section;
* while it is free, the cycles and slots are settled: generations follow the order of creation, the
  pending cycle is younger than the current one, and every other cycle is shut down, as all of them
  are once the service is;
* every cycle stays in its position and keeps its generation;
* the generation of the current cycle never decreases, and the current cycle changes only by a
  promotion;
* a cycle that is neither current nor pending while the lock is free never becomes current, and
  after the shutdown of the service no other cycle does;
* the current and the pending cycle are not shut down before the service is, unless a caller does
  that itself. -/
theorem succession (E : Services) :
    (∀ t, (E.run t).procs.countP Job.inside = if (E.cells t).service.locked then 1 else 0) ∧
    (∀ t, (E.cells t).service.locked = false → (E.cells t).Settled) ∧
    (∀ t u k c, t ≤ u → (E.cells t).cycle? k = some c →
      ∃ c', (E.cells u).cycle? k = some c' ∧ c'.generation = c.generation) ∧
    (∀ t u c c', t ≤ u → (E.cells t).current? = some c → (E.cells u).current? = some c' →
      c.generation ≤ c'.generation) ∧
    (∀ t, (E.cells (t + 1)).service.current ≠ (E.cells t).service.current →
      ∃ u i next, E.Promotes u t i next) ∧
    (∀ t u k, t ≤ u → (E.cells t).service.locked = false → k < (E.cells t).cycles.length →
      k ≠ (E.cells t).service.current → (E.cells t).service.pending ≠ some k →
      (E.cells u).service.current ≠ k) ∧
    (∀ t u, t ≤ u → (E.cells t).service.shutDown = true →
      (E.cells u).service.current = (E.cells t).service.current) ∧
    (E.LeavesCycles → ∀ t c, (E.cells t).service.locked = false →
      (E.cells t).service.shutDown = false →
      (E.cells t).current? = some c ∨ (E.cells t).pending? = some c →
      c.isShutdownRequested = false) := by
  refine ⟨fun t => (orderly t).countP_inside, fun t hl => (orderly t).settled hl,
    fun t u k c htu hc => ?_, fun t u c c' htu hc hc' => ?_, fun t => exists_promotes,
    fun t u k htu hl hk hcur hpend h => ?_, fun t u => current_of_shutDown,
    fun hE t c _ hopen hc => ?_⟩
  · obtain ⟨c', hc', hk⟩ := (keeps htu).cycle k c hc
    exact ⟨c', hc', hk.generation⟩
  · rw [(orderly t).ordered.generation_current hc, (orderly u).ordered.generation_current hc']
    exact Nat.succ_le_succ (current_mono htu)
  · refine not_inPlay htu hk (fun hplay => ?_) (.inl h)
    obtain h | h := hplay.of_free (orderly t) hl
    · exact hcur h.symm
    · exact hpend h
  · obtain hc | hc := hc
    · exact hE.unharmed t hopen _ (.inl rfl) c hc
    · obtain ⟨k, hk, hc⟩ := Option.bind_eq_some_iff.mp hc
      exact hE.unharmed t hopen k (.inr (.inl hk)) c hc

/-- a change comes in, its cycle is built, and the promotion makes it current -/
def handover : Services :=
  .ofList (.start {})
    (.enter (.changing .acquiring) ::
      (List.replicate 9 0 ++ List.replicate 12 1 ++ List.replicate 4 2).map
        fun i => .move i false (.granting []))
    ⟨_, rfl⟩ (by
      intro p hp s
      obtain hp | hp := List.mem_cons.mp hp
      · cases hp
        exact .inl rfl
      · obtain ⟨i, _, hi⟩ := List.mem_map.mp hp
        cases hi)

/-- the first change leads to a promotion -/
theorem succession_handover :
    (handover.cells 25).service.current = 0 ∧ (handover.cells 26).service.current = 1 ∧
    ∃ u i next, handover.Promotes u 25 i next := by
  have h0 : (handover.cells 25).service.current = 0 := by decide +kernel
  have h1 : (handover.cells 26).service.current = 1 := by decide +kernel
  refine ⟨h0, h1, (succession handover).2.2.2.2.1 25 ?_⟩
  rw [h0, h1]
  exact Nat.one_ne_zero

end Execution

end IndexCoordinator
