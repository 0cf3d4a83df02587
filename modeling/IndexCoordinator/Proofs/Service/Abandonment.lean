import IndexCoordinator.Proofs.Cycle.Callers
import IndexCoordinator.Proofs.Cycle.Maintenance
import IndexCoordinator.Proofs.Service.Refusal
import IndexCoordinator.Proofs.Service.Restriction

/-!
# Abandoned cycles

Whoever supersedes a cycle, takes its place, closes the service or shuts the cycle down as a caller
requests the shutdown in one move.  Where the build has not ended by then, storage is never asked for
maintenance of that cycle.

* `Coordinator.Abandoned`         the shutdown of a cycle is requested before its build has ended;
* `Job.Moves.abandons`            who shuts a cycle down abandons it, unless its build has ended;
* `Execution.Moves.abandoned`     a promotion is given up only where its cycle is abandoned;
* `Execution.Spares`              no work on a cycle ever asks storage for maintenance;
* `Execution.maintenance_follows_build`   when a cycle is maintained, and when never.
-/

namespace IndexCoordinator

namespace Coordinator

/-- the shutdown of the cycle at a position is requested, and its promise is empty -/
def Abandoned (w : Coordinator) (k : Nat) : Prop :=
  ∃ c, w.cycle? k = some c ∧ c.isShutdownRequested = true ∧ c.outcome.slot = none

theorem Shuts.abandoned {w w' : Coordinator} {k : Nat} {again : Option Shutdown} {c : Cycle}
    (h : w.Shuts k .claiming w' again) (hc : w.cycle? k = some c) (hs : c.outcome.slot = none) :
    w'.Abandoned k := by
  cases h with
  | missing hnone => cases hnone.symm.trans hc
  | found hc' hshut =>
    obtain rfl := Option.some.inj (hc'.symm.trans hc)
    refine ⟨_, cycle?_setCycle_self hc _, ?_⟩
    cases hshut with
    | claim => exact ⟨rfl, hs⟩
    | lose hreq => exact ⟨hreq, hs⟩

end Coordinator

namespace Job

/-- **Who shuts a cycle down before its build has ended abandons it,** whatever for. -/
theorem Moves.abandons {fired : Bool} {answer : Answering} {w : Coordinator} {j : Job}
    {q : Progress Coordinator Job} {k : Nat} {c : Cycle} (h : Moves fired answer w j q)
    (hj : j.site? = some (k, .call (.shuttingDown .claiming))) (hc : w.cycle? k = some c)
    (hs : c.outcome.slot = none) : q.shared.Abandoned k := by
  cases h with
  | @work _ _ c' p hc' hp =>
    cases hj
    obtain rfl := Option.some.inj (hc'.symm.trans hc)
    refine ⟨p.shared, Coordinator.cycle?_setCycle_self hc _, ?_⟩
    cases hreq : c'.lifecycle.shutdownPerformed <;>
      simp only [Work.next, CycleCall.next, Shutdown.next, hreq] at hp <;> cases hp
    · exact ⟨rfl, hs⟩
    · exact ⟨hreq, hs⟩
  | supersede h | superseded h | retire h | retired h | abandon h | dropped h | stop h
  | stopped h =>
    cases hj
    exact h.abandoned hc hs
  | acquire _ h =>
    unfold afterLock at h
    split at h <;> cases h <;> cases hj
  | release h =>
    unfold afterUnlock at h
    split at h <;> cases h <;> cases hj
  | _ => cases hj

end Job

namespace Execution

/-- no work on the cycle at a position ever asks storage for maintenance -/
def Spares (E : Services) (k : Nat) : Prop :=
  ∀ t i x fired answer q r, E.Moves t i (.work k x) fired answer q →
    r.isMaintenance = true → .entered r ∉ q.events

variable {E : Services} {t u i k : Nat} {fired : Bool} {answer : Answering}
  {q : Progress Coordinator Job}

theorem Restriction.maintenance {F : Builds} {σ : Nat → Nat} (h : E.Restriction k u F σ)
    (htu : t ≤ u) {x : Work} (hm : E.Moves t i (.work k x) fired answer q) {r : Request}
    (hr : .entered r ∈ q.events) (hmain : r.isMaintenance = true) :
    ∃ i' m p, x = .maintenance m ∧ F.proc? (σ t) i' = some (.maintenance m) ∧
      Maintenance.Moves answer (F.cells (σ t)) m p ∧ .entered r ∈ p.events := by
  cases hm.job with
  | work hc hp =>
    obtain ⟨m, p, rfl, hmove, hp⟩ := (Work.moves_of_next hp).maintenance hr hmain
    obtain ⟨i', hi'⟩ := h.exists_proc htu hc hm.proc
    exact ⟨i', m, p, rfl, hi', (h.cells htu hc).symm ▸ hmove, hp⟩
  | acquire _ h => cases h
  | release h => cases h

/-- **An abandoned cycle is never maintained,** neither before nor after. -/
theorem spares (h : (E.cells t).Abandoned k) : E.Spares k := by
  intro u i x fired answer q r hm hmain hr
  obtain ⟨c, hc, hreq, hslot⟩ := h
  have ht := Nat.le_max_left t u
  obtain ⟨c', hc', _⟩ := (keeps ht).cycle k c hc
  obtain ⟨F, σ, hF⟩ := exists_restriction hc'
  have habandoned : F.Abandoned (σ t) := by
    unfold Abandoned
    rw [hF.cells ht hc]
    exact ⟨hreq, hslot⟩
  obtain ⟨i', m, p, _, hi', hmove, hp⟩ := hF.maintenance (Nat.le_max_right t u) hm hr hmain
  exact habandoned.idle hi' hmove r hp

theorem Moves.abandoned (hm : E.Moves t i (.promoting k .waiting) fired answer q)
    (hq : q.self = .ended .done) : (E.cells t).Abandoned k := by
  cases hm.job with
  | @abandoned _ c hc hslot hcancel =>
    obtain ⟨F, σ, hF⟩ := exists_restriction hc
    have hcells := hF.cells (Nat.le_refl t) hc
    refine ⟨c, hc, ?_, hslot⟩
    rw [← hcells] at hcancel ⊢
    exact requested_of_cancelled hcancel
  | built => cases hq
  | acquire _ h => cases h
  | release h => cases h

/-- **When a cycle is maintained.**  In every execution of a cycle with any callers, and of a service
with any callers of it and its cycles:

* storage is asked to delete stale ids, or to bring the indexes up to date, only after the promise of
  the build holds a configuration; then every index of it was opened, no opening ended otherwise,
  and registry, configuration and evaluator are there; and the indexes are brought up to date only by
  a task that had the stale ids deleted before, which returned normally;
* the same holds for every cycle of a service, in the execution of that cycle;
* if the shutdown of a cycle is requested while its promise is empty, storage is asked for neither, by
  no task and at no time;
* so it is for every cycle of a service whose build has not ended when it is superseded, replaced,
  abandoned by the shutdown of the service or shut down by a caller;
* and a promotion is given up only for such a cycle. -/
theorem maintenance_follows_build :
    (∀ (E : Builds) t i x fired answer q r, E.Moves t i x fired answer q →
      r.isMaintenance = true → .entered r ∈ q.events → E.Maintains t i r) ∧
    (∀ (E : Services) t i k x fired answer q r, E.Moves t i (.work k x) fired answer q →
      r.isMaintenance = true → .entered r ∈ q.events →
      ∃ F σ i', E.Restriction k t F σ ∧ F.proc? (σ t) i' = some x ∧ F.Maintains (σ t) i' r) ∧
    (∀ (E : Builds) t u r, E.Abandoned t → r.isMaintenance = true →
      .entered r ∉ (E.run u).trace) ∧
    (∀ (E : Services) t k, (E.cells t).Abandoned k → E.Spares k) ∧
    (∀ (E : Services) t i j fired answer q k c, E.Moves t i j fired answer q →
      j.site? = some (k, .call (.shuttingDown .claiming)) → (E.cells t).cycle? k = some c →
      c.outcome.slot = none → (E.cells (t + 1)).Abandoned k ∧ E.Spares k) ∧
    ∀ (E : Services) t i k fired answer q, E.Moves t i (.promoting k .waiting) fired answer q →
      q.self = .ended .done → (E.cells t).Abandoned k ∧ E.Spares k := by
  refine ⟨fun E t i x fired answer q r hm hmain hr => ?_,
    fun E t i k x fired answer q r hm hmain hr => ?_, fun E t u r h hmain hr => ?_,
    fun E t k => spares, fun E t i j fired answer q k c hm hj hc hs => ?_,
    fun E t i k fired answer q hm hq => ⟨hm.abandoned hq, spares (hm.abandoned hq)⟩⟩
  · obtain ⟨m, p, rfl, hmove, hp⟩ := hm.work.maintenance hr hmain
    exact maintains hm.proc hmove hp
  · obtain ⟨c, hc⟩ : ∃ c, (E.cells t).cycle? k = some c := by
      cases hm.job with
      | work hc => exact ⟨_, hc⟩
      | acquire _ h => cases h
      | release h => cases h
    obtain ⟨F, σ, hF⟩ := exists_restriction hc
    obtain ⟨i', m, p, rfl, hi', hmove, hp⟩ := hF.maintenance (Nat.le_refl t) hm hr hmain
    exact ⟨F, σ, i', hF, hi', maintains hi' hmove hp⟩
  · obtain ⟨v, i, x, fired, answer, q, _, hm, hr⟩ := exists_move_of_event hr
    obtain ⟨m, p, rfl, hmove, hp⟩ := hm.work.maintenance hr hmain
    exact h.idle hm.proc hmove r hp
  · have habandoned : (E.cells (t + 1)).Abandoned k := by
      rw [hm.cells_succ]
      exact hm.job.abandons hj hc hs
    exact ⟨habandoned, spares habandoned⟩

/-- a build ends well, and the task that it starts has the stale ids deleted and goes on -/
def upkeep : Builds :=
  .ofScript (.granting [])
    [(.submitting .claiming,
      ([0, 0, 0] ++ List.replicate 15 1 ++ List.replicate 5 2).map (·, false))]
    .submit

/-- a caller asks for a confirmation, and another shuts the cycle down before its build ends -/
def forsaken : Builds :=
  .ofScript (.granting [])
    [(.ensuring .looking, [0, 0, 0].map (·, false)),
      (.shuttingDown .claiming, [2, 2, 1, 1].map (·, false)),
      (.submitting .claiming, ([3, 3, 3] ++ List.replicate 15 4).map (·, false))]
    ⟨.ensure, .shutDown, .submit⟩

/-- a change comes in, and another before the cycle of the first one is built -/
def haste : Services :=
  ofRequests (.granting [])
    [(.changing .acquiring, List.replicate 9 0), (.changing .acquiring, List.replicate 8 3)]
    ⟨.inl rfl, .inl rfl⟩

/-- the first cycle is maintained after its build, the second never, and the superseded one neither -/
theorem maintenance_follows_build_upkeep :
    upkeep.Maintains 23 2 .bringUpToDate ∧
    (∀ u, .entered .bringUpToDate ∉ (forsaken.run u).trace) ∧
    haste.Spares 1 := by
  obtain ⟨hfollows, _, hforsaken, _, hsuperseded, _⟩ := maintenance_follows_build
  have hm : ∃ q, upkeep.Moves 23 2 (.maintenance ⟨0, .entering⟩) false (.granting []) q ∧
      .entered .bringUpToDate ∈ q.events := ⟨_, .of_cue rfl rfl rfl, List.mem_singleton_self _⟩
  obtain ⟨q, hm, hr⟩ := hm
  have habandoned : forsaken.Abandoned 7 := ⟨rfl, rfl⟩
  have hshut : ∃ q, haste.Moves 18 3 (.changing (.superseding 2 1 .claiming)) false (.granting []) q :=
    ⟨_, .of_cue rfl rfl rfl⟩
  obtain ⟨_, hshut⟩ := hshut
  have hc : ∃ c, (haste.cells 18).cycle? 1 = some c ∧ c.outcome.slot = none := ⟨_, rfl, rfl⟩
  obtain ⟨c, hc, hslot⟩ := hc
  exact ⟨hfollows _ _ _ _ _ _ _ _ hm rfl hr, fun u => hforsaken _ 7 u _ habandoned rfl,
    (hsuperseded _ _ _ _ _ _ _ _ c hshut rfl hc hslot).2⟩

end Execution

end IndexCoordinator
