import IndexCoordinator.Proofs.Cycle.Confirmation
import IndexCoordinator.Proofs.Fairness

/-!
# Requests that share a confirmation

Who asks for a confirmation while one is pending shares its promise, but starts a task of its own.
The first of these tasks to end resolves the promise for all of them.

* `Execution.Served`            why a task resolves its promise: its pass is over, or the shutdown
                                was requested;
* `Execution.server_of_confirmed`   a resolved promise was resolved by a task that was served;
* `Execution.loaded_le`         who waits for all indexes waits for no older promise than the one
                                that was current when it came in;
* `Execution.wait_confirms`     a wait that succeeds tells that a task for the promise of every
                                earlier request was served, and so its own task if it shares the
                                promise with no other;
* `Execution.not_served_by_every_wait`   with a shared promise the request's own task may be
                                pending.
-/

namespace IndexCoordinator

namespace Work

variable {fired : Bool} {answer : Answering} {c : Cycle} {q : Progress Cycle Work}

theorem next_of_updating (fired : Bool) (c : Cycle) {m : Maintenance} (h : m.stage = .updating) :
    ∃ k, Work.next fired c (.maintenance m) = .call .bringUpToDate k := by
  simp only [Work.next, Maintenance.next, h]
  exact ⟨_, rfl⟩

def isTaskOf (k : Nat) : Work → Bool
  | .maintenance m => m.promise == k
  | _ => false

theorem confirmed_of_done {a : AwaitAll}
    (h : (Work.next fired c (.call (.awaitingAll a))).under answer = some q)
    (hq : q.self = .ended .done) : ∃ k, a = .parked k ∧ c.Confirmed k := by
  cases a with
  | configuration a =>
    cases moves_of_next h with
    | wait => cases hq
    | @waited _ _ _ r => cases r <;> cases hq
    | reject => cases hq
  | loading =>
    cases h
    cases hq
  | parked k =>
    refine ⟨k, rfl, ?_⟩
    cases hs : (c.confirmation k).slot with
    | some u => exact Option.isSome_iff_exists.mpr ⟨u, hs⟩
    | none =>
      cases fired <;>
        simp only [Work.next, CycleCall.next, AwaitAll.next, Promise.look, hs] at h <;> cases h
      cases hq

end Work

namespace Execution

section
variable (E : Builds) (t i : Nat)

/-- why a task resolves its promise: its pass over storage is over, normally or by a panic that was
caught, or it was left out because the shutdown is requested -/
def Served : MaintenanceEnd → Prop
  | .buildFailed => False
  | .abandoned => (E.cells t).isShutdownRequested = true
  | .skipped => (E.cells t).isShutdownRequested = true
  | .passed =>
    E.Answered t i .deleteStaleIds (.returned ()) ∧ E.Answered t i .bringUpToDate (.returned ())
  | .caught p =>
    E.Answered t i .deleteStaleIds (.panicked p) ∨
      E.Answered t i .deleteStaleIds (.returned ()) ∧ E.Answered t i .bringUpToDate (.panicked p)

end

variable {E : Builds} {t u v e i j k : Nat} {w : Work}

theorem Served.mono {how : MaintenanceEnd} (h : E.Served t i how) (htu : t ≤ u) :
    E.Served u i how := by
  cases how with
  | buildFailed => exact h
  | abandoned | skipped => exact (cells_keep htu).shutdown h
  | passed => exact ⟨h.1.mono htu, h.2.mono htu⟩
  | caught p => exact Or.imp (·.mono htu) (fun h => ⟨h.1.mono htu, h.2.mono htu⟩) h

theorem served_of_confirming {m : Maintenance} {how : MaintenanceEnd}
    (h : E.proc? t i = some (.maintenance m)) (hst : m.stage = .confirming how) :
    E.Served t i how := by
  induction t generalizing m with
  | zero => cases h
  | succ t ih =>
    have hle := Nat.le_succ t
    obtain h' | ⟨m₀, fired, answer, p, hm, hmove, rfl⟩ | hnew := task_of_succ h
    · exact (ih h' hst).mono hle
    · have hprepared := prepared hm.proc
      cases hmove with
      | abandon _ _ hcancelled =>
        cases hst
        exact (cells_keep hle).shutdown (requested_of_cancelled hcancelled)
      | skip _ hrequested =>
        cases hst
        exact (cells_keep hle).shutdown hrequested
      | undeleted hst₀ ha =>
        cases hst
        obtain ⟨k, hn⟩ := Work.next_of_deleting fired (E.cells t) hst₀
        exact .inl (ha ▸ hm.answered hn)
      | updated hst₀ ha =>
        cases hst
        rw [hst₀] at hprepared
        obtain ⟨k, hn⟩ := Work.next_of_updating fired (E.cells t) hst₀
        exact ⟨hprepared.2.mono hle, ha ▸ hm.answered hn⟩
      | outdated hst₀ ha =>
        cases hst
        rw [hst₀] at hprepared
        obtain ⟨k, hn⟩ := Work.next_of_updating fired (E.cells t) hst₀
        exact .inr ⟨hprepared.2.mono hle, ha ▸ hm.answered hn⟩
      | _ => cases hst
    · cases hst.symm.trans hnew

theorem ended_task_stays {m : Maintenance} {how : MaintenanceEnd}
    (h : E.proc? t i = some (.maintenance m)) (hst : m.stage = .ended how) (htu : t ≤ u) :
    E.proc? u i = some (.maintenance m) := by
  obtain h' | ⟨v, fired, answer, q, _, _, hm⟩ := stays_or_moves h htu
  · exact h'
  · have hq := hm.leads
    simp only [Work.next, Maintenance.next, hst] at hq
    cases hq

theorem Moves.ended_succ {m : Maintenance} {how : MaintenanceEnd} {fired : Bool}
    {answer : Answering} {q : Progress Cycle Work}
    (hm : E.Moves t i (.maintenance m) fired answer q) (hst : m.stage = .confirming how) :
    E.proc? (t + 1) i = some (.maintenance ⟨m.promise, .ended how⟩) := by
  have hq := hm.leads
  simp only [Work.next, Maintenance.next, hst] at hq
  cases hq
  exact hm.self_succ

/-- a task for a promise has ended and was served -/
def Server (E : Builds) (t j k : Nat) : Prop :=
  ∃ how, E.proc? t j = some (.maintenance ⟨k, .ended how⟩) ∧ E.Served t j how

theorem Server.mono (h : E.Server t j k) (htu : t ≤ u) : E.Server u j k := by
  obtain ⟨how, hj, hs⟩ := h
  exact ⟨how, ended_task_stays hj rfl htu, hs.mono htu⟩

/-- **A resolved promise was resolved by a task that was served.** -/
theorem server_of_confirmed (h : (E.cells t).Confirmed k) : ∃ j, E.Server t j k := by
  induction t with
  | zero =>
    obtain ⟨settings, generation, hcells⟩ := cells_zero (E := E)
    rw [hcells] at h
    cases k <;> cases h
  | succ t ih =>
    have hkeep (h : (E.cells t).Confirmed k) : ∃ j, E.Server (t + 1) j k := by
      obtain ⟨j, hj⟩ := ih h
      exact ⟨j, hj.mono (Nat.le_succ t)⟩
    obtain he | ⟨i, w, fired, answer, q, hm⟩ := cells_succ (E := E) t
    · exact hkeep (he ▸ h)
    · rw [hm.cells_succ] at h
      cases hm.work.confirms with
      | none hconf =>
        refine hkeep ?_
        rw [Cycle.Confirmed, Cycle.confirmation, ← hconf]
        exact h
      | renew _ he =>
        rw [he, Cycle.Confirmed, Cycle.confirmation_renew] at h
        exact hkeep h
      | @confirm m how hw hst he =>
        subst hw
        by_cases hk : m.promise = k
        · subst hk
          exact ⟨i, how, hm.ended_succ hst, (served_of_confirming hm.proc hst).mono (Nat.le_succ t)⟩
        · rw [he, Cycle.Confirmed, Cycle.confirmation_resolve, if_neg fun h => hk h.1] at h
          exact hkeep h

/-- **Who waits for all indexes waits for no older promise** than the one that was current when it
came in. -/
theorem loaded_le (h : E.proc? t i = some (.call (.awaitingAll (.parked k))))
    {w : Work} (he : E.Enters e i w) : (E.cells e).slot ≤ k := by
  induction t with
  | zero => cases h
  | succ t ih =>
    obtain h' | ⟨w₀, fired, answer, q, hm, hq⟩ | ⟨_, k', hfresh, hw⟩ |
      ⟨j, w₀, fired, answer, q, hm, hx, _⟩ := proc_of_succ h
    · exact ih h'
    · rw [hm.work.parked hq]
      exact slot_mono (Nat.le_of_lt (he.lt_of_proc hm.proc))
    · cases hw
      cases hfresh
    · obtain hx | ⟨n, hx⟩ := (Work.of_next hm.leads).2.spawned _ hx <;> cases hx

theorem confirmed_of_wait (he : E.Enters e i (.call (.awaitingAll (.configuration .reading))))
    (hv : E.proc? v i = some (.ended .done)) :
    ∃ k, (E.cells e).slot ≤ k ∧ k ≤ (E.cells v).slot ∧ (E.cells v).Confirmed k := by
  obtain ⟨m, k', fired, answer, q, _, hmv, hm, hq, ho⟩ := he.exists_move hv
  cases k' with
  | awaitingAll a =>
    obtain ⟨k, rfl, hk⟩ := Work.confirmed_of_done hm.leads hq
    have hle := Nat.le_of_lt hmv
    exact ⟨k, loaded_le hm.proc he, Nat.le_trans (has_le hm.proc .waiter) (slot_mono hle),
      confirmed_stays hk hle⟩
  | _ => cases ho

theorem Moves.task_succ {fired : Bool} {answer : Answering} {q : Progress Cycle Work}
    (hm : E.Moves t i w fired answer q) (hw : w.ensure? = some (.spawning k)) :
    E.proc? (t + 1) (E.run t).procs.length = some (.maintenance ⟨k, .waiting⟩) := by
  obtain ⟨turn, hmove, hasked⟩ := hm.work.asked hw
  obtain rfl := hmove.of_spawning
  cases hasked with
  | stop hsp =>
    show (E.run (t + 1)).procs[_]? = _
    rw [hm.run, Run.procs_commit, hsp, List.getElem?_append_right (by simp)]
    simp

/-- **What a successful wait tells.**  Let a caller or the build have asked for a confirmation, so
that a task for its promise was started, and let another caller come in afterwards, wait for all
indexes and succeed.  Then some task for this promise has ended, with its pass over storage over,
normally or by a panic that was caught, or left out because the shutdown is requested.  So this
holds of the task that the request has started, if no other task has the same promise. -/
theorem wait_confirms {fired : Bool} {answer : Answering} {q : Progress Cycle Work}
    (hm : E.Moves t i w fired answer q) (hw : w.ensure? = some (.spawning k)) (hte : t < e)
    (he : E.Enters e j (.call (.awaitingAll (.configuration .reading))))
    (hv : E.proc? v j = some (.ended .done)) :
    E.proc? (t + 1) (E.run t).procs.length = some (.maintenance ⟨k, .waiting⟩) ∧
    (∃ l, E.Server v l k) ∧
    ((∀ l stage, E.proc? v l = some (.maintenance ⟨k, stage⟩) → l = (E.run t).procs.length) →
      E.Server v (E.run t).procs.length k) := by
  obtain ⟨k', hle, hle', hk'⟩ := confirmed_of_wait he hv
  have hkk' : k ≤ k' :=
    Nat.le_trans (Nat.le_trans (has_le hm.proc (.asked hw rfl)) (slot_mono (Nat.le_of_lt hte))) hle
  have hk : (E.cells v).Confirmed k := by
    obtain rfl | hlt := Nat.eq_or_lt_of_le hkk'
    · exact hk'
    · exact confirmed_of_lt (Nat.lt_of_lt_of_le hlt hle')
  obtain ⟨l, hl⟩ := server_of_confirmed hk
  refine ⟨hm.task_succ hw, ⟨l, hl⟩, fun honly => ?_⟩
  obtain ⟨how, hproc, hserved⟩ := hl
  obtain rfl := honly l _ hproc
  exact ⟨how, hproc, hserved⟩

/-- a caller asks for a confirmation while the task of the build is at work, and another waits; then
the task of the build ends.  Once the wait is over a third caller asks, and its task ends before a
fourth one waits -/
def shared : Builds :=
  .ofScript (.granting [])
    [(.submitting .claiming,
        ([0, 0, 0] ++ List.replicate 15 1 ++ List.replicate 5 2).map (·, false)),
      (.ensuring .looking, [3, 3, 3].map (·, false)),
      (.awaitingAll (.configuration .reading), [5, 5, 2, 2, 5].map (·, false)),
      (.ensuring .looking, ([6, 6, 6] ++ List.replicate 7 7).map (·, false)),
      (.awaitingAll (.configuration .reading), [8, 8, 8].map (·, false))]
    ⟨.submit, .ensure, .awaitAll, .ensure, .awaitAll⟩

/-- the second request of a script shares its promise with the build -/
theorem shared_asks :
    (∃ q, shared.Moves 27 3 (.call (.ensuring (.spawning 0))) false (.granting []) q) ∧
    shared.Enters 28 5 (.call (.awaitingAll (.configuration .reading))) ∧
    shared.proc? 34 5 = some (.ended .done) :=
  ⟨⟨_, .of_cue rfl rfl rfl⟩, ⟨rfl, rfl⟩, rfl⟩

/-- the first wait tells of a task for the shared promise, the second of the request's own task -/
theorem wait_confirms_shared :
    (shared.proc? 28 4 = some (.maintenance ⟨0, .waiting⟩) ∧ ∃ l, shared.Server 34 l 0) ∧
    (∃ q, shared.Moves 37 6 (.call (.ensuring (.spawning 1))) false (.granting []) q) ∧
    shared.Enters 45 8 (.call (.awaitingAll (.configuration .reading))) ∧
    shared.proc? 49 8 = some (.ended .done) ∧ shared.Server 49 7 1 := by
  obtain ⟨⟨q, hm⟩, he, hv⟩ := shared_asks
  have hm' : ∃ q, shared.Moves 37 6 (.call (.ensuring (.spawning 1))) false (.granting []) q :=
    ⟨_, .of_cue rfl rfl rfl⟩
  have he' : shared.Enters 45 8 (.call (.awaitingAll (.configuration .reading))) := ⟨rfl, rfl⟩
  have hv' : shared.proc? 49 8 = some (.ended .done) := rfl
  obtain ⟨htask, hserver, _⟩ := wait_confirms hm rfl (by decide) he hv
  obtain ⟨q', hq'⟩ := hm'
  obtain ⟨_, _, hown⟩ := wait_confirms hq' rfl (by decide) he' hv'
  refine ⟨⟨htask, hserver⟩, ⟨q', hq'⟩, he', hv', hown fun l stage hl => ?_⟩
  have honly : ∀ l < (shared.run 49).procs.length,
      (shared.proc? 49 l).any (Work.isTaskOf 1) = true → l = (shared.run 37).procs.length := by
    decide +kernel
  exact honly l (proc?_lt hl) (by rw [hl]; rfl)

/-- a wait that succeeds does not tell that the task of every earlier request was served -/
theorem not_served_by_every_wait :
    ¬ ∀ (E : Builds) t i w fired answer q k, E.Moves t i w fired answer q →
      w.ensure? = some (.spawning k) → ∀ e j, t < e →
        E.Enters e j (.call (.awaitingAll (.configuration .reading))) →
        ∀ v, E.proc? v j = some (.ended .done) → E.Server v (E.run t).procs.length k := by
  intro h
  obtain ⟨⟨q, hm⟩, he, hv⟩ := shared_asks
  obtain ⟨how, hproc, _⟩ := h shared 27 3 _ _ _ q 0 hm rfl 28 5 (by decide) he 34 hv
  have hpending : shared.proc? 34 4 = some (.maintenance ⟨0, .waiting⟩) := rfl
  cases hpending.symm.trans hproc

end Execution

end IndexCoordinator
