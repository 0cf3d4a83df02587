import IndexCoordinator.Proofs.Cycle.Lookup
import IndexCoordinator.Proofs.Cycle.Readiness
import IndexCoordinator.Proofs.Service.Refusal
import IndexCoordinator.Proofs.Service.Restriction

/-!
# What waits and lookups get

A change gives its caller a new cycle, which stays in play until a younger one has taken its place or
the service is shut down.  So who waits for the pending cycle afterwards is given that cycle or a
younger one.  A cycle becomes current only after its build has ended, and then it is ready unless
the build failed.

* `Run.Reaches`                 a cycle as young as a given one is in play, or the service is shut
                                down;
* `Job.gives?`, `Run.Reachable.handed`   the cycle that a caller is given, which is reached;
* `Execution.Saw`              what a wait for the pending cycle has seen where it stands;
* `Execution.Enters.at_least`   it is given no older cycle;
* `Execution.isBuilt_current`   the build of the current cycle has ended, unless it is the first one;
* `Execution.Enters.led`        where a lookup comes to;
* `Execution.waits_are_fresh`   all of it together.
-/

namespace IndexCoordinator

namespace Job

/-- the cycle that a job gives to its caller, or is going to give -/
def gives? : Job → Option Nat
  | .changing (.superseding next _ _) => some next
  | .changing (.releasing next) => some next
  | .changing (.spawning next) => some next
  | .ended (.cycle n) => some n
  | _ => none

section
variable {fired : Bool} {answer : Answering} {w : Coordinator} {j : Job}
  {q : Progress Coordinator Job} {k n : Nat}

theorem Moves.gives (h : Moves fired answer w j q) (hq : q.self.gives? = some n) :
    j.gives? = some n ∨ q.shared.service.pending = some n ∨ q.shared.service.current = n := by
  cases h with
  | acquire _ h =>
    unfold afterLock at h
    split at h <;> cases h <;> cases hq
  | release h =>
    unfold afterUnlock at h
    split at h <;> cases h <;> cases hq
    exact .inl rfl
  | replace | install =>
    cases hq
    exact .inr (.inl rfl)
  | answer =>
    cases hq
    exact .inr (.inr rfl)
  | supersede | superseded | spawn => exact .inl hq
  | _ => cases hq

theorem Moves.gives_spawned (h : Moves fired answer w j q) :
    ∀ x ∈ q.spawned, x.gives? = none := by
  intro x hx
  obtain ⟨_, _, rfl⟩ | ⟨_, _, rfl⟩ | ⟨_, rfl⟩ := h.spawned x hx <;> rfl

/-- **A cycle in play makes place only for a younger one,** as long as the service is open. -/
theorem Moves.succeeded (h : Moves fired answer w j q) (hs : j.inside = true → w.Section j)
    (hk : w.service.current = k ∨ w.service.pending = some k ∨ j.coming = some k) :
    q.shared.service.shutDown = true ∨ ∃ k', k ≤ k' ∧
      (q.shared.service.current = k' ∨ q.shared.service.pending = some k' ∨
        q.self.coming = some k') := by
  have hsame (hc : j.coming = some k → q.self.coming = some k)
      (he : q.shared.service = w.service) :
      q.shared.service.shutDown = true ∨ ∃ k', k ≤ k' ∧
        (q.shared.service.current = k' ∨ q.shared.service.pending = some k' ∨
          q.self.coming = some k') := by
    refine .inr ⟨k, Nat.le_refl k, ?_⟩
    rw [he]
    exact hk.imp_right (.imp_right hc)
  cases h with
  | acquire _ h =>
    unfold afterLock at h
    refine .inr ⟨k, Nat.le_refl k, hk.imp_right (.imp_right fun hc => ?_)⟩
    split at h <;> cases h <;> cases hc
  | release h =>
    unfold afterUnlock at h
    refine .inr ⟨k, Nat.le_refl k, hk.imp_right (.imp_right fun hc => ?_)⟩
    split at h <;> cases h <;> cases hc
  | create => exact .inr ⟨k, Nat.le_refl k, hk.imp_right (.imp_right nofun)⟩
  | @replace next old hp =>
    obtain ⟨_, _, _, hyounger⟩ := hs rfl
    obtain hk | hk | hk := hk
    · exact .inr ⟨k, Nat.le_refl k, .inl hk⟩
    · exact .inr ⟨next, Nat.le_of_lt (hyounger k hk), .inr (.inl rfl)⟩
    · exact .inr ⟨k, Nat.le_refl k, .inr (.inl hk)⟩
  | @install next hp =>
    obtain hk | hk | hk := hk
    · exact .inr ⟨k, Nat.le_refl k, .inl hk⟩
    · cases hp.symm.trans hk
    · exact .inr ⟨k, Nat.le_refl k, .inr (.inl hk)⟩
  | @take next hp =>
    obtain hk | hk | hk := hk
    · exact .inr ⟨k, Nat.le_refl k, .inl hk⟩
    · exact .inr ⟨k, Nat.le_refl k, .inr (.inr (hp.symm.trans hk))⟩
    · cases hk
  | @swap next =>
    obtain ⟨_, hnone, hlt, _⟩ := hs rfl
    obtain hk | hk | hk := hk
    · exact .inr ⟨next, hk ▸ Nat.le_of_lt hlt, .inl rfl⟩
    · cases hnone.symm.trans hk
    · exact .inr ⟨k, Nat.le_refl k, .inl (Option.some.inj hk)⟩
  | close => exact .inl rfl
  | drop | clear => exact .inl (hs rfl)
  | supersede h | superseded h | retire h | retired h | abandon h | dropped h | stop h
  | stopped h => exact hsame nofun h.aside.service
  | submit | submitted => exact hsame id rfl
  | _ => exact hsame nofun rfl

end

end Job

namespace Run

/-- a cycle as young as a given one is in play, or the service is shut down -/
def Reaches (r : Run Coordinator Job) (n : Nat) : Prop :=
  r.shared.service.shutDown = true ∨ ∃ k, n ≤ k ∧ r.InPlay k

def Handed (r : Run Coordinator Job) : Prop :=
  ∀ j ∈ r.procs, ∀ n, j.gives? = some n → r.Reaches n

variable {r r' : Run Coordinator Job} {n : Nat}

theorem Reaches.step (h : r.Reaches n) (ho : r.Orderly) (hst : Step Job.next r r') :
    r'.Reaches n := by
  obtain ⟨i, j, fired, answer, q, hj, hq, rfl⟩ := hst.exists_under
  have hm := Job.moves_of_next hq
  have hmem := List.mem_of_getElem? hj
  obtain ⟨others, hp, hp'⟩ := exists_others hj
  obtain h | ⟨k, hk, hplay⟩ := h
  · exact .inl (hm.keeps.shutDown h)
  -- the cycle is in a place that the move can change, or another job brings it
  have hplaces : (r.shared.service.current = k ∨ r.shared.service.pending = some k ∨
      j.coming = some k) ∨ ∃ x ∈ others, x.coming = some k := by
    obtain h | h | ⟨x, hx, hc⟩ := hplay
    · exact .inl (.inl h)
    · exact .inl (.inr (.inl h))
    · obtain rfl | hx := List.mem_cons.mp (hp.mem_iff.mp hx)
      · exact .inl (.inr (.inr hc))
      · exact .inr ⟨x, hx, hc⟩
  obtain hplaces | ⟨x, hx, hc⟩ := hplaces
  · obtain h | ⟨k', hk', h | h | h⟩ := hm.succeeded (ho.section hmem) hplaces
    · exact .inl h
    · exact .inr ⟨k', Nat.le_trans hk hk', .inl h⟩
    · exact .inr ⟨k', Nat.le_trans hk hk', .inr (.inl h)⟩
    · exact .inr ⟨k', Nat.le_trans hk hk',
        .inr (.inr ⟨q.self, mem_commit hj List.mem_cons_self, h⟩)⟩
  · have hx' : x ∈ (r.commit i q).procs :=
      (hp' q).mem_iff.mpr (List.mem_cons_of_mem _ (List.mem_append_left _ hx))
    exact .inr ⟨k, hk, .inr (.inr ⟨x, hx', hc⟩)⟩

theorem Reaches.invoke (h : r.Reaches n) (j : Job) : (r.invoke j).Reaches n := by
  obtain h | ⟨k, hk, h | h | ⟨x, hx, hc⟩⟩ := h
  · exact .inl h
  · exact .inr ⟨k, hk, .inl h⟩
  · exact .inr ⟨k, hk, .inr (.inl h)⟩
  · exact .inr ⟨k, hk, .inr (.inr ⟨x, List.mem_append_left _ hx, hc⟩)⟩

theorem Handed.step (h : r.Handed) (ho : r.Orderly) (hst : Step Job.next r r') : r'.Handed := by
  have hkeep (n : Nat) (hr : r.Reaches n) : r'.Reaches n := hr.step ho hst
  obtain ⟨i, j, fired, answer, q, hj, hq, rfl⟩ := hst.exists_under
  have hm := Job.moves_of_next hq
  intro x hx n hn
  obtain hx | hx := mem_of_commit hx
  · obtain rfl | hx := List.mem_cons.mp hx
    · obtain hn | hn | hn := hm.gives hn
      · exact hkeep n (h j (List.mem_of_getElem? hj) n hn)
      · exact .inr ⟨n, Nat.le_refl n, .inr (.inl hn)⟩
      · exact .inr ⟨n, Nat.le_refl n, .inl hn⟩
    · rw [hm.gives_spawned x hx] at hn
      cases hn
  · exact hkeep n (h x hx n hn)

theorem Reachable.handed (h : r.OfService) : r.Handed := by
  induction h with
  | start => exact fun _ hj => absurd hj List.not_mem_nil
  | @invoke r j _ hj ih =>
    intro x hx n hn
    obtain hx | hx := List.mem_append.mp hx
    · exact (ih x hx n hn).invoke j
    · obtain rfl := List.mem_singleton.mp hx
      obtain rfl | rfl | rfl | ⟨_, _, rfl⟩ | ⟨_, _, _, _, rfl⟩ := hj <;> cases hn
  | step hr hst ih => exact ih.step (Reachable.orderly hr) hst

end Run

namespace Execution

variable {E : Services} {s t u v i k m n : Nat}

theorem reaches_mono (h : (E.run t).Reaches n) (htu : t ≤ u) : (E.run u).Reaches n := by
  induction u, htu using Nat.le_induction with
  | base => exact h
  | succ u _ ih =>
    obtain hst | he | ⟨j, _, _, he⟩ := step_or (E := E) u
    · exact ih.step (orderly u) hst
    · rw [he]
      exact ih
    · rw [he]
      exact ih.invoke j

/-! ### a wait for the pending cycle -/

/-- what a wait for the pending cycle that came in at a moment has seen where it stands -/
def Saw (E : Services) (s t : Nat) : Job → Prop
  | .awaitingPending .looking => True
  | .awaitingPending .checking =>
    ∃ u, s < u ∧ u < t ∧ (E.cells u).service.locked = false ∧ (E.cells u).service.pending = none
  | .awaitingPending .loading =>
    ∃ u, s < u ∧ u < t ∧ (E.cells u).service.locked = false ∧
      (E.cells u).service.pending = none ∧ (E.cells u).service.shutDown = false
  | .ended (.cycle m) =>
    ∃ u v, s < u ∧ u ≤ v ∧ v < t ∧ (E.cells u).service.locked = false ∧
      (E.cells u).service.pending = none ∧ (E.cells u).service.shutDown = false ∧
      (E.cells v).service.current = m
  | .ended (.failed _) => True
  | _ => False

theorem Saw.mono {j : Job} (h : E.Saw s t j) (htu : t ≤ u) : E.Saw s u j := by
  unfold Saw at h ⊢
  split at h
  · trivial
  · obtain ⟨v, hs, hv, h⟩ := h
    exact ⟨v, hs, Nat.lt_of_lt_of_le hv htu, h⟩
  · obtain ⟨v, hs, hv, h⟩ := h
    exact ⟨v, hs, Nat.lt_of_lt_of_le hv htu, h⟩
  · obtain ⟨v, v', hs, hv, hv', h⟩ := h
    exact ⟨v, v', hs, hv, Nat.lt_of_lt_of_le hv' htu, h⟩
  · trivial
  · exact h.elim

theorem Saw.step {j : Job} {fired : Bool} {answer : Answering} {q : Progress Coordinator Job}
    (h : E.Saw s t j) (hst : s < t) (hm : E.Moves t i j fired answer q) :
    E.Saw s (t + 1) q.self := by
  cases hm.job with
  | settled hl hp => exact ⟨t, hst, Nat.lt_succ_self t, hl, hp⟩
  | cancelled | late => trivial
  | ready hopen =>
    obtain ⟨u, hsu, hut, hl, hp⟩ := h
    refine ⟨u, hsu, Nat.lt_succ_of_lt hut, hl, hp, ?_⟩
    by_contra hshut
    rw [(keeps (Nat.le_of_lt hut)).shutDown (Bool.not_eq_false _ ▸ hshut)] at hopen
    cases hopen
  | answer =>
    obtain ⟨u, hsu, hut, hl, hp, hopen⟩ := h
    exact ⟨u, t, hsu, Nat.le_of_lt hut, Nat.lt_succ_self t, hl, hp, hopen, rfl⟩
  | acquire _ hj =>
    unfold Job.afterLock at hj
    split at hj <;> first | exact h.elim | cases hj
  | release hj =>
    unfold Job.afterUnlock at hj
    split at hj <;> first | exact h.elim | cases hj
  | _ => exact h.elim

theorem Enters.saw (h : E.Enters s i (.awaitingPending .looking)) (hst : s < t) :
    ∃ j, E.proc? t i = some j ∧ E.Saw s t j := by
  induction t, hst using Nat.le_induction with
  | base => exact ⟨_, h.proc_succ, trivial⟩
  | succ t hst ih =>
    obtain ⟨j, hj, hsaw⟩ := ih
    obtain hj' | ⟨fired, answer, q, hm⟩ := Execution.proc_succ hj
    · exact ⟨j, hj', hsaw.mono (Nat.le_succ t)⟩
    · exact ⟨q.self, hm.self_succ, hsaw.step hst hm⟩

/-- **Who waits is given no older cycle** than anyone was given before. -/
theorem Enters.at_least (h : E.Enters s i (.awaitingPending .looking))
    (hm : E.proc? v i = some (.ended (.cycle m))) (ht : E.proc? t k = some (.ended (.cycle n)))
    (hts : t ≤ s) : n ≤ m ∧ m < (E.cells v).cycles.length := by
  obtain ⟨j, hj, hsaw⟩ := h.saw (h.lt_of_proc hm)
  cases hj.symm.trans hm
  obtain ⟨u, u', hsu, huu', hu'v, hl, hp, hopen, rfl⟩ := hsaw
  have hmono := current_mono (E := E) (Nat.le_of_lt hu'v)
  refine ⟨?_, Nat.lt_of_le_of_lt hmono (orderly v).ordered.current⟩
  have hgiven := Run.Reachable.handed (E.reachable t) _ (List.mem_of_getElem? ht) n rfl
  obtain hshut | ⟨k', hk', hplay⟩ := reaches_mono hgiven (Nat.le_trans hts (Nat.le_of_lt hsu))
  · cases hopen.symm.trans hshut
  · obtain hcur | hpend := hplay.of_free (orderly u) hl
    · exact Nat.le_trans hk' (hcur ▸ current_mono huu')
    · cases hp.symm.trans hpend

/-! ### the current cycle -/

/-- **The build of the current cycle has ended,** unless it is the first cycle. -/
theorem isBuilt_current (t : Nat) :
    (E.cells t).service.current = 0 ∨ (E.cells t).IsBuilt (E.cells t).service.current := by
  induction t with
  | zero =>
    obtain ⟨settings, hs⟩ := E.isInitial
    have hfirst : E.cells 0 = .start settings := hs
    rw [hfirst]
    exact .inl rfl
  | succ t ih =>
    by_cases hsame : (E.cells (t + 1)).service.current = (E.cells t).service.current
    · rw [hsame]
      exact ih.imp_right (keeps (Nat.le_succ t)).isBuilt
    · obtain ⟨u, i, next, h⟩ := exists_promotes hsame
      rw [h.current]
      exact .inr ((keeps (Nat.le_succ_of_le (Nat.le_of_lt h.before))).isBuilt h.built)

theorem ready_of_cycle {c : Cycle} {cfg : IndexConfiguration} (hc : (E.cells t).cycle? k = some c)
    (h : c.outcome.slot = some (.ok cfg)) : c.Ready cfg := by
  obtain ⟨F, σ, hr⟩ := exists_restriction hc
  obtain rfl := hr.cells (Nat.le_refl t) hc
  exact ready_of_slot h

theorem current_ready {c : Cycle} (hc : (E.cells t).current? = some c) (hg : 1 < c.generation) :
    ∃ o, c.outcome.slot = some o ∧ ∀ cfg, o = .ok cfg → c.Ready cfg := by
  have hk : c.generation = (E.cells t).service.current + 1 :=
    (orderly t).ordered.generation_current hc
  obtain hzero | ⟨c', o, hc', ho⟩ := isBuilt_current (E := E) t
  · omega
  · obtain rfl : c' = c := Option.some.inj (hc'.symm.trans hc)
    refine ⟨o, ho, ?_⟩
    rintro cfg rfl
    exact ready_of_cycle hc ho

/-! ### lookups -/

/-- **A lookup on a promoted cycle is rejected only if its build has failed.** -/
theorem Moves.failed_of_reject {c : Cycle} {call : CycleCall} {fired : Bool} {answer : Answering}
    {q : Progress Coordinator Job} (hm : E.Moves u i (.work k (.call call)) fired answer q)
    (hcall : call.operation.isLookup = true)
    (hq : q.self = .work k (.ended (.failed .notInitialized))) (htu : t ≤ u)
    (hk : (E.cells t).service.current = k) (hc : (E.cells t).cycle? k = some c)
    (hg : 1 < c.generation) : ∃ e, c.outcome.slot = some (.error e) := by
  subst hk
  obtain ⟨o, ho, _⟩ := current_ready hc hg
  cases o with
  | error e => exact ⟨e, ho⟩
  | ok cfg =>
    obtain ⟨c', hc', hkeep⟩ := (keeps htu).cycle _ c hc
    have hready := ready_of_cycle hc' (hkeep.outcome _ ho)
    cases hm.job with
    | @work _ _ c₀ p hc₀ hp =>
      obtain rfl : c₀ = c' := Option.some.inj (hc₀.symm.trans hc')
      have hself : p.self = .ended (.failed .notInitialized) := (Job.work.inj hq).2
      have hsome := hready.evaluator
      rw [(Work.moves_of_next hp).evaluator_none hcall hself] at hsome
      cases hsome
    | acquire _ hj => cases hj
    | release hj => cases hj

/-- what has become of a lookup that came in at a moment where it stands -/
def Led (E : Services) (s t i : Nat) (call : CycleCall) : Job → Prop
  | .lookingUp call' => call' = call
  | .loading call' => call' = call
  | .work k (.call call') =>
    call'.operation = call.operation ∧ ∃ u, s < u ∧ u < t ∧ (E.cells u).service.current = k
  | .work k (.ended r) =>
    ∃ u v call' fired answer q, s < u ∧ u < v ∧ v < t ∧ (E.cells u).service.current = k ∧
      call'.operation = call.operation ∧ E.Moves v i (.work k (.call call')) fired answer q ∧
      q.self = .work k (.ended r)
  | .ended _ => True
  | _ => False

theorem Led.mono {call : CycleCall} {j : Job} (h : E.Led s t i call j) (htu : t ≤ u) :
    E.Led s u i call j := by
  unfold Led at h ⊢
  split at h
  · exact h
  · exact h
  · obtain ⟨ho, v, hs, hv, h⟩ := h
    exact ⟨ho, v, hs, Nat.lt_of_lt_of_le hv htu, h⟩
  · obtain ⟨v, v', call', fired, answer, q, hs, hv, hv', h⟩ := h
    exact ⟨v, v', call', fired, answer, q, hs, hv, Nat.lt_of_lt_of_le hv' htu, h⟩
  · trivial
  · exact h.elim

theorem Led.step {call : CycleCall} {j : Job} {fired : Bool} {answer : Answering}
    {q : Progress Coordinator Job} (h : E.Led s t i call j) (hst : s < t)
    (hm : E.Moves t i j fired answer q) : E.Led s (t + 1) i call q.self := by
  have hj := hm.job
  cases hj with
  | reject => trivial
  | passOn => exact h
  | lookUp =>
    obtain rfl := h
    exact ⟨rfl, t, hst, Nat.lt_succ_self t, rfl⟩
  | @work k x c p hc hp =>
    cases x with
    | call call' =>
      obtain ⟨ho, u, hsu, hut, hcur⟩ := h
      obtain ⟨call'', hself, ho'⟩ | ⟨r, hself⟩ := (Work.of_next hp).2.of_call
      · have hself' : (p.map ((E.cells t).setCycle k) (Job.work k)).self = .work k (.call call'') :=
          congrArg (Job.work k) hself
        rw [hself']
        exact ⟨ho'.trans ho, u, hsu, Nat.lt_succ_of_lt hut, hcur⟩
      · have hself' : (p.map ((E.cells t).setCycle k) (Job.work k)).self = .work k (.ended r) :=
          congrArg (Job.work k) hself
        rw [hself']
        exact ⟨u, t, call', fired, answer, _, hsu, hut, Nat.lt_succ_self t, hcur, ho, hm, hself'⟩
    | ended => cases hp
    | _ => exact h.elim
  | acquire _ hj =>
    unfold Job.afterLock at hj
    split at hj <;> first | exact h.elim | cases hj
  | release hj =>
    unfold Job.afterUnlock at hj
    split at hj <;> first | exact h.elim | cases hj
  | _ => exact h.elim

/-- **Where a lookup comes to:** the cycle that is current when it gets there. -/
theorem Enters.led {call : CycleCall} (h : E.Enters s i (.lookingUp call)) (hst : s < t) :
    ∃ j, E.proc? t i = some j ∧ E.Led s t i call j := by
  induction t, hst using Nat.le_induction with
  | base => exact ⟨_, h.proc_succ, rfl⟩
  | succ t hst ih =>
    obtain ⟨j, hj, hled⟩ := ih
    obtain hj' | ⟨fired, answer, q, hm⟩ := Execution.proc_succ hj
    · exact ⟨j, hj', hled.mono (Nat.le_succ t)⟩
    · exact ⟨q.self, hm.self_succ, hled.step hst hm⟩

/-- **Waits and lookups are given no old or half-built cycle.**  In every execution of a service:

* if a change has given its caller a cycle before a wait for the pending cycle comes in, and the wait
  ends with a cycle, then the generation of that cycle is at least as high;
* a cycle that is current and not the first has its promise resolved, and if that is with a
  configuration, then registry, configuration and evaluator are there;
* so where a cycle was current that is not the first, a lookup on it is rejected from then on only
  if its build had failed;
* and a lookup that the service passes on is rejected by such a cycle only if its build has failed. -/
theorem waits_are_fresh (E : Services) :
    (∀ r i n t s k m v, E.Enters r i (.changing .acquiring) →
      E.proc? t i = some (.ended (.cycle n)) → t ≤ s →
      E.Enters s k (.awaitingPending .looking) → E.proc? v k = some (.ended (.cycle m)) →
      ∃ c c', (E.cells v).cycle? n = some c ∧ (E.cells v).cycle? m = some c' ∧
        c.generation ≤ c'.generation) ∧
    (∀ t c, (E.cells t).current? = some c → 1 < c.generation →
      ∃ o, c.outcome.slot = some o ∧ ∀ cfg, o = .ok cfg →
        c.registry = some cfg.registry ∧ c.state.isSome = true ∧ c.evaluator.isSome = true) ∧
    (∀ t u i k c call fired answer q, t ≤ u → (E.cells t).service.current = k →
      (E.cells t).cycle? k = some c → 1 < c.generation →
      E.Moves u i (.work k (.call call)) fired answer q → call.operation.isLookup = true →
      q.self = .work k (.ended (.failed .notInitialized)) →
      ∃ e, c.outcome.slot = some (.error e)) ∧
    ∀ s i call v k, E.Enters s i (.lookingUp call) → call.operation.isLookup = true →
      E.proc? v i = some (.work k (.ended (.failed .notInitialized))) →
      ∃ c, (E.cells v).cycle? k = some c ∧
        (1 < c.generation → ∃ e, c.outcome.slot = some (.error e)) := by
  refine ⟨fun r i n t s k m v _ hn hts he hm => ?_, fun t c hc hg => ?_,
    fun t u i k c call fired answer q htu hk hc hg hm hcall hq =>
      hm.failed_of_reject hcall hq htu hk hc hg, fun s i call v k he hcall hv => ?_⟩
  · obtain ⟨hnm, hlt⟩ := he.at_least hm hn hts
    have hc : (E.cells v).cycle? n = some _ := List.getElem?_eq_getElem (Nat.lt_of_le_of_lt hnm hlt)
    have hc' : (E.cells v).cycle? m = some _ := List.getElem?_eq_getElem hlt
    refine ⟨_, _, hc, hc', ?_⟩
    rw [(orderly v).ordered.generation n _ hc, (orderly v).ordered.generation m _ hc']
    exact Nat.succ_le_succ hnm
  · obtain ⟨o, ho, hready⟩ := current_ready hc hg
    exact ⟨o, ho, fun cfg hcfg =>
      ⟨(hready cfg hcfg).registry, (hready cfg hcfg).state, (hready cfg hcfg).evaluator⟩⟩
  · obtain ⟨j, hj, hled⟩ := he.led (he.lt_of_proc hv)
    cases hj.symm.trans hv
    obtain ⟨t, u, call', fired, answer, q, _, htu, huv, hk, ho, hm, hq⟩ := hled
    have hlt : k < (E.cells t).cycles.length := hk ▸ (orderly t).ordered.current
    have hc : (E.cells t).cycle? k = some _ := List.getElem?_eq_getElem hlt
    obtain ⟨c, hcv, hkeep⟩ := (keeps (Nat.le_of_lt (Nat.lt_trans htu huv))).cycle k _ hc
    refine ⟨c, hcv, fun hg => ?_⟩
    obtain ⟨e, he⟩ := hm.failed_of_reject (ho ▸ hcall) hq (Nat.le_of_lt htu) hk hc
      (hkeep.generation ▸ hg)
    exact ⟨e, hkeep.outcome _ he⟩

def withoutExtensions : Answering
  | .listDescriptors => .returned (.error ⟨"host gone"⟩)
  | r => Answering.granting [] r

/-- a change comes in, its build fails, and it is promoted nevertheless; then a caller waits for the
pending cycle and another looks up a file -/
def relay : Services :=
  ofRequests withoutExtensions
    [(.changing .acquiring, List.replicate 9 0 ++ List.replicate 3 1 ++ List.replicate 7 2),
      (.awaitingPending .looking, [3, 3, 3]),
      (.lookingUp (.requiring (.regular "a.txt" ⟨"text"⟩ 3)), [4, 4, 4])]
    ⟨.inl rfl, .inr (.inl rfl), .inr (.inr ⟨.requiring _, trivial, rfl⟩)⟩

/-- the wait is given the cycle of the change, and the lookup is rejected because its build failed -/
theorem waits_are_fresh_relay :
    (∃ c c', (relay.cells 24).cycle? 1 = some c ∧ (relay.cells 24).cycle? 1 = some c' ∧
      c.generation ≤ c'.generation) ∧
    (∃ c o, (relay.cells 20).current? = some c ∧ 1 < c.generation ∧ c.outcome.slot = some o) ∧
    ∃ c e, (relay.cells 28).cycle? 1 = some c ∧ c.outcome.slot = some (.error e) := by
  obtain ⟨hwait, hcurrent, _, hlookup⟩ := waits_are_fresh relay
  have hcur : (relay.cells 20).service.current = 1 := by decide +kernel
  have hordered : (relay.cells 20).Ordered := (orderly 20).ordered
  obtain ⟨c, hc⟩ := hordered.exists_current
  have hg := hordered.generation_current hc
  rw [hcur] at hg
  obtain ⟨o, ho, _⟩ := hcurrent 20 c hc (by omega)
  obtain ⟨c', hc', hfailed⟩ := hlookup 24 4 (.requiring (.regular "a.txt" ⟨"text"⟩ 3)) 28 1
    ⟨rfl, rfl⟩ rfl rfl
  have hgen : c'.generation = 2 := (orderly (E := relay) 28).ordered.generation 1 c' hc'
  obtain ⟨e, he⟩ := hfailed (by omega)
  exact ⟨hwait 0 0 1 20 20 3 1 24 ⟨rfl, rfl⟩ rfl (Nat.le_refl 20) ⟨rfl, rfl⟩ rfl,
    ⟨c, o, hc, by omega, ho⟩, c', e, hc', he⟩

end Execution

end IndexCoordinator
