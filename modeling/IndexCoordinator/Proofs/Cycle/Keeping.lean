import IndexCoordinator.Proofs.Cycle.Confirmation
import IndexCoordinator.Proofs.Fairness

/-!
# Confirmations are kept

A promise that is not resolved yet has somebody who is going to resolve it: a maintenance task, or
whoever is about to start one.

* `Work.Keeps`                 a process that keeps a promise, with the moves that are left to it;
* `Execution.keeper_step`      its move resolves the promise or leaves a keeper with fewer moves;
* `Execution.exists_keeper`    an unresolved promise has a keeper;
* `Execution.awaitAll_ends`    in a fair execution every caller that waits for it has its reply;
* `Execution.confirmations_kept`   all of it together.
-/

namespace IndexCoordinator

/-! ## keepers -/

def MaintenanceStage.left : MaintenanceStage → Nat
  | .waiting => 7
  | .checking => 6
  | .starting => 5
  | .deleting => 4
  | .entering => 3
  | .updating => 2
  | .confirming _ => 1
  | .ended _ => 0

namespace Work

/-- a process that keeps an unresolved promise: a task that has not ended, whoever is about to start
one for it, or a build that is about to ask; with the number of moves that are left until the
promise is resolved -/
inductive Keeps (k : Nat) : Work → Nat → Prop where
  | look : Keeps k (.genesis (.confirming .looking)) 10
  | swap : Keeps k (.genesis (.confirming (.swapping k false))) 9
  | spawn {w : Work} : w.ensure? = some (.spawning k) → Keeps k w 8
  | task {stage : MaintenanceStage} : 0 < stage.left →
      Keeps k (.maintenance ⟨k, stage⟩) stage.left

variable {w : Work} {c : Cycle} {k n : Nat} {answer : Answering}

theorem left_of_maintenance {m : Maintenance} {p : Progress Cycle Maintenance}
    (h : Maintenance.Moves answer c m p) (hc : ∀ e, c.outcome.slot ≠ some (.error e)) :
    p.self.stage.left < m.stage.left ∧
      (0 < p.self.stage.left ∨ p.shared = c.resolveConfirmation m.promise) := by
  cases h with
  | failed _ hslot => exact absurd hslot (hc _)
  | confirm hst => exact ⟨by rw [hst]; exact Nat.zero_lt_one, .inr rfl⟩
  | built hst | abandon hst | skip hst | start hst | delete hst | deleted hst | undeleted hst
  | update hst | updated hst | outdated hst =>
    rw [hst]
    exact ⟨by simp [MaintenanceStage.left], .inl (by simp [MaintenanceStage.left])⟩

/-- **A keeper can always move** once the build has its configuration. -/
theorem Keeps.canMove (h : w.Keeps k n) {cfg : IndexConfiguration}
    (hslot : c.outcome.slot = some (.ok cfg)) (fired : Bool) (answer : Answering) :
    ((Work.next fired c w).under answer).isSome = true := by
  have hasks {w : Work} {e : Ensure} (hw : w.ensure? = some e) :
      ((Work.next fired c w).under answer).isSome = true := by
    unfold ensure? at hw
    split at hw <;> cases hw
    · simp only [Work.next, Genesis.next]
      rcases e.next c with ⟨c', e' | k⟩ <;> rfl
    · simp only [Work.next, CycleCall.next]
      rcases e.next c with ⟨c', e' | k⟩ <;> rfl
  cases h with
  | look | swap => exact hasks rfl
  | spawn hw => exact hasks hw
  | @task stage hleft =>
    cases stage with
    | waiting => simp [Work.next, Maintenance.next, Promise.look, hslot, Maintenance.go, Move.map]
    | checking =>
      cases hr : c.isShutdownRequested <;>
        simp [Work.next, Maintenance.next, hr, Maintenance.go, Move.map]
    | ended => cases hleft
    | _ => rfl

end Work

/-! ## waiting -/

def AwaitAll.left : AwaitAll → Nat
  | .configuration .reading => 5
  | .configuration .parked => 4
  | .configuration (.storing _) => 3
  | .loading => 2
  | .parked _ => 1

namespace Work

variable {fired : Bool} {answer : Answering} {c : Cycle} {q : Progress Cycle Work} {a : AwaitAll}

theorem left_of_awaitAll (h : (Work.next fired c (.call (.awaitingAll a))).under answer = some q) :
    (∃ a', q.self = .call (.awaitingAll a') ∧ a'.left < a.left) ∨ ∃ r, q.self = .ended r := by
  cases a with
  | configuration a =>
    cases a with
    | reading =>
      cases hs : c.state <;>
        simp only [Work.next, CycleCall.next, AwaitAll.next, Await.next, hs] at h <;> cases h
      · exact .inl ⟨_, rfl, by decide⟩
      · exact .inl ⟨_, rfl, by decide⟩
    | parked =>
      cases hs : c.outcome.look fired with
      | value o =>
        cases o <;>
          simp only [Work.next, CycleCall.next, AwaitAll.next, Await.next, hs] at h <;> cases h
        · exact .inr ⟨_, rfl⟩
        · exact .inl ⟨_, rfl, Nat.lt_succ_self 3⟩
      | cancelled =>
        simp only [Work.next, CycleCall.next, AwaitAll.next, Await.next, hs] at h
        cases h
        exact .inr ⟨_, rfl⟩
      | nothing =>
        simp only [Work.next, CycleCall.next, AwaitAll.next, Await.next, hs] at h
        cases h
    | storing cfg =>
      cases h
      exact .inl ⟨_, rfl, Nat.lt_succ_self 2⟩
  | loading =>
    cases h
    exact .inl ⟨_, rfl, Nat.lt_succ_self 1⟩
  | parked k =>
    cases hs : (c.confirmation k).look fired <;>
      simp only [Work.next, CycleCall.next, AwaitAll.next, hs] at h <;> cases h
    · exact .inr ⟨_, rfl⟩
    · exact .inr ⟨_, rfl⟩

theorem awaitAll_canMove {cfg : IndexConfiguration} (hslot : c.outcome.slot = some (.ok cfg))
    (hk : ∀ k, a = .parked k → c.Confirmed k) (fired : Bool) (answer : Answering) :
    ((Work.next fired c (.call (.awaitingAll a))).under answer).isSome = true := by
  cases a with
  | configuration a =>
    cases a with
    | reading =>
      cases hs : c.state <;>
        simp only [Work.next, CycleCall.next, AwaitAll.next, Await.next, hs] <;> rfl
    | parked =>
      simp only [Work.next, CycleCall.next, AwaitAll.next, Await.next,
        Promise.look_of_slot hslot]
      rfl
    | storing cfg => rfl
  | loading => rfl
  | parked k =>
    obtain ⟨u, hu⟩ := Option.isSome_iff_exists.mp (hk k rfl)
    simp only [Work.next, CycleCall.next, AwaitAll.next, Promise.look_of_slot hu]
    rfl

end Work

def Work.isSettled : Work → Bool
  | .genesis .ended => true
  | .genesis (.unwound _) => true
  | .maintenance ⟨_, .ended _⟩ => true
  | .ended _ => true
  | _ => false

theorem Work.next_of_isSettled {w : Work} (h : w.isSettled = true) (fired : Bool) (c : Cycle) :
    Work.next fired c w = .blocked := by
  unfold isSettled at h
  split at h <;> first | rfl | cases h

/-! ## every moment -/

namespace Execution

variable {E : Builds} {t u i k : Nat} {w : Work}

theorem slot_of_not_confirmed (hle : k ≤ (E.cells t).slot) (hk : ¬ (E.cells t).Confirmed k) :
    (E.cells t).slot = k :=
  (Nat.eq_or_lt_of_le hle).elim Eq.symm fun hlt => absurd (confirmed_of_lt hlt) hk

/-- **A keeper's move** resolves the promise, or leaves a keeper with fewer moves. -/
theorem keeper_step {n : Nat} {fired : Bool} {answer : Answering} {q : Progress Cycle Work}
    (hm : E.Moves t i w fired answer q) (hw : w.Keeps k n) (hle : k ≤ (E.cells t).slot)
    (herr : ∀ e, (E.cells t).outcome.slot ≠ some (.error e))
    (hk : ¬ (E.cells (t + 1)).Confirmed k) :
    ∃ j w' n', n' < n ∧ E.proc? (t + 1) j = some w' ∧ w'.Keeps k n' := by
  have hk' : ¬ (E.cells t).Confirmed k := fun h => hk (confirmed_stays h (Nat.le_succ t))
  have hslot := slot_of_not_confirmed hle hk'
  cases hw with
  | look =>
    have hdone : ((E.cells t).confirmation k).done = false := by
      rw [(numbered t).done]
      exact Bool.eq_false_iff.mpr hk'
    have hself := hm.self_succ
    cases hm.work with
    | confirm hn =>
      cases Ensure.moves_of_next hn
      rw [hslot, hdone] at hself
      exact ⟨i, _, 9, by omega, hself, .swap⟩
    | confirmed hn => cases Ensure.moves_of_next hn
  | swap =>
    have hself := hm.self_succ
    cases hm.work with
    | confirm hn =>
      cases Ensure.moves_of_next hn with
      | retry hne => exact absurd hslot hne
      | share => exact ⟨i, _, 8, by omega, hself, .spawn rfl⟩
    | confirmed hn => cases Ensure.moves_of_next hn
  | spawn hw =>
    obtain ⟨turn, hmove, hasked⟩ := hm.work.asked hw
    obtain rfl := hmove.of_spawning
    cases hasked with
    | stop hsp =>
      have hmem := hm.mem_succ (List.mem_cons_of_mem _ (hsp ▸ List.mem_singleton_self _))
      obtain ⟨j, hj⟩ := List.mem_iff_getElem?.mp hmem
      have htask : (Work.maintenance ⟨k, .waiting⟩).Keeps k 7 := .task (by decide)
      exact ⟨j, _, 7, by omega, hj, htask⟩
  | task =>
    cases hm.work with
    | @maintain _ p hp =>
      have hmove := Maintenance.moves_of_next hp
      obtain ⟨hlt, hleft | hdone⟩ := Work.left_of_maintenance hmove herr
      · obtain rfl : p.self.promise = k := Work.promise_of_maintenance hmove
        exact ⟨i, _, p.self.stage.left, hlt, hm.self_succ, .task hleft⟩
      · refine absurd ?_ hk
        rw [hm.cells_succ]
        exact hdone ▸ Cycle.confirmed_resolve ((numbered t).of_le hle)

theorem keeper_succ {n : Nat} (h : E.proc? t i = some w) (hw : w.Keeps k n)
    (hle : k ≤ (E.cells t).slot) (herr : ∀ e, (E.cells t).outcome.slot ≠ some (.error e))
    (hk : ¬ (E.cells (t + 1)).Confirmed k) :
    ∃ j w' n', E.proc? (t + 1) j = some w' ∧ w'.Keeps k n' := by
  obtain h' | ⟨fired, answer, q, hm⟩ := Execution.proc_succ h
  · exact ⟨i, w, n, h', hw⟩
  · obtain ⟨j, w', n', _, hj, hw'⟩ := keeper_step hm hw hle herr hk
    exact ⟨j, w', n', hj, hw'⟩

theorem keeper_of_renewed (h : (E.cells t).slot < k) (h' : k ≤ (E.cells (t + 1)).slot) :
    ∃ i w, E.proc? (t + 1) i = some w ∧ w.Keeps k 8 := by
  obtain he | ⟨i, w, fired, answer, q, hm⟩ := cells_succ (E := E) t
  · rw [he] at h'
    omega
  · rw [hm.cells_succ] at h'
    obtain hs | ⟨hs, hw⟩ := hm.work.confirms.slot (numbered t)
    · omega
    · obtain ⟨turn, hmove, hasked⟩ := hm.work.asked hw
      obtain rfl := hmove.of_current
      cases hasked with
      | go hself =>
        have hlen := (numbered (E := E) t).length
        obtain rfl : k = (E.cells t).confirmations.length := by omega
        exact ⟨i, _, hm.self_succ, .spawn hself⟩

theorem keeper_of_resolving {cfg : IndexConfiguration} {fired : Bool} {answer : Answering}
    {q : Progress Cycle Work} (hm : E.Moves t i (.genesis (.resolving (.ok cfg))) fired answer q) :
    ∃ w, E.proc? (t + 1) i = some w ∧ w.Keeps 0 10 := by
  have hself := hm.self_succ
  cases hm.work with
  | resolve => exact ⟨_, hself, .look⟩

section
variable {T : Nat} {cfg : IndexConfiguration} (hok : (E.cells T).outcome.slot = some (.ok cfg))
include hok

theorem not_failed (t : Nat) (e : BuildError) : (E.cells t).outcome.slot ≠ some (.error e) := by
  intro he
  obtain hle | hle := Nat.le_total t T
  · cases hok.symm.trans ((cells_keep hle).outcome _ he)
  · cases he.symm.trans ((cells_keep hle).outcome _ hok)

/-- **An unresolved promise has a keeper;** as long as the build has not resolved its own promise,
the keeper of the first one may be yet to come. -/
theorem exists_keeper (hle : k ≤ (E.cells t).slot) (hk : ¬ (E.cells t).Confirmed k) :
    (∃ i w n, E.proc? t i = some w ∧ w.Keeps k n) ∨
      k = 0 ∧ (E.cells t).outcome.slot = none := by
  induction t with
  | zero =>
    obtain ⟨settings, generation, hcells⟩ := cells_zero (E := E)
    rw [hcells] at hle ⊢
    exact .inr ⟨Nat.le_zero.mp hle, rfl⟩
  | succ t ih =>
    by_cases hle' : k ≤ (E.cells t).slot
    · obtain ⟨i, w, n, hi, hw⟩ | ⟨rfl, hnone⟩ :=
        ih hle' fun h => hk (confirmed_stays h (Nat.le_succ t))
      · exact .inl (keeper_succ hi hw hle' (not_failed hok t) hk)
      · obtain he | ⟨i, o, fired, answer, q, hm, _⟩ := outcome_succ (E := E) t
        · exact .inr ⟨rfl, by rw [he]; exact hnone⟩
        · cases o with
          | ok cfg =>
            obtain ⟨w, hw, hkeeps⟩ := keeper_of_resolving hm
            exact .inl ⟨i, w, 10, hw, hkeeps⟩
          | error e => exact absurd (hm.slot_of_resolving hnone) (not_failed hok _ e)
    · obtain ⟨i, w, hi, hw⟩ := keeper_of_renewed (Nat.lt_of_not_le hle') hle
      exact .inl ⟨i, w, 8, hi, hw⟩

theorem confirmed_of_ended {m : Maintenance} {how : MaintenanceEnd}
    (h : E.proc? t i = some (.maintenance m)) (hst : m.stage = .ended how) :
    (E.cells t).Confirmed m.promise := by
  induction t generalizing m with
  | zero => cases h
  | succ t ih =>
    have hle := Nat.le_succ t
    obtain h' | ⟨m₀, fired, answer, p, hm, hmove, rfl⟩ | hnew := task_of_succ h
    · exact confirmed_stays (ih h' hst) hle
    · obtain ⟨_, hleft | hdone⟩ := Work.left_of_maintenance hmove (not_failed hok t)
      · rw [hst] at hleft
        cases hleft
      · have hpromise := has_le hm.proc (.task m₀.stage)
        rw [hm.cells_succ, Work.promise_of_maintenance hmove]
        exact hdone ▸ Cycle.confirmed_resolve ((numbered t).of_le hpromise)
    · cases hst.symm.trans hnew

/-- **In a fair execution every promise is resolved.** -/
theorem eventually_confirmed (hfair : E.Fair) (hT : T ≤ t) (hle : k ≤ (E.cells t).slot) :
    ∃ u, t ≤ u ∧ (E.cells u).Confirmed k := by
  by_contra hnone
  have hopen {u : Nat} (hu : t ≤ u) : ¬ (E.cells u).Confirmed k := fun h => hnone ⟨u, hu, h⟩
  -- a keeper moves again and again, each time with fewer moves left
  have hno (n : Nat) : ∀ u i w, t ≤ u → E.proc? u i = some w → ¬ w.Keeps k n := by
    induction n using Nat.strongRecOn with
    | ind n ih =>
      intro u i w hu hi hw
      obtain ⟨v, fired, answer, q, huv, hm⟩ := hfair u i w hi fun v huv fired answer =>
        hw.canMove ((cells_keep (by omega)).outcome _ hok) fired answer
      obtain ⟨j, w', n', hlt, hj, hw'⟩ := keeper_step hm hw
        (Nat.le_trans hle (slot_mono (Nat.le_trans hu huv))) (not_failed hok v) (hopen (by omega))
      exact ih n' hlt (v + 1) j w' (by omega) hj hw'
  obtain ⟨i, w, n, hi, hw⟩ | ⟨_, hslot⟩ := exists_keeper hok hle (hopen (Nat.le_refl t))
  · exact hno n t i w (Nat.le_refl t) hi hw
  · cases hslot.symm.trans ((cells_keep hT).outcome _ hok)

/-- **In a fair execution every caller that waits for all indexes has its reply.** -/
theorem awaitAll_ends (hfair : E.Fair) {a : AwaitAll} (hT : T ≤ t)
    (h : E.proc? t i = some (.call (.awaitingAll a))) :
    ∃ v r, E.proc? v i = some (.ended r) := by
  generalize hn : a.left = n
  induction n using Nat.strongRecOn generalizing t a with
  | ind n ih =>
    subst hn
    obtain ⟨u, htu, hcan⟩ : ∃ u, t ≤ u ∧ ∀ k, a = .parked k → (E.cells u).Confirmed k := by
      cases a with
      | parked k =>
        obtain ⟨u, htu, hu⟩ := eventually_confirmed hok hfair hT (has_le h .waiter)
        exact ⟨u, htu, fun k' hk' => by cases hk'; exact hu⟩
      | _ => exact ⟨t, Nat.le_refl t, nofun⟩
    have hmoves : ∃ v fired answer q, t ≤ v ∧
        E.Moves v i (.call (.awaitingAll a)) fired answer q := by
      obtain hu | ⟨v, fired, answer, q, htv, _, hm⟩ := stays_or_moves h htu
      · obtain ⟨v, fired, answer, q, huv, hm⟩ := hfair u i _ hu fun v huv fired answer =>
          Work.awaitAll_canMove ((cells_keep (by omega)).outcome _ hok)
            (fun k hk => confirmed_stays (hcan k hk) huv) fired answer
        exact ⟨v, fired, answer, q, Nat.le_trans htu huv, hm⟩
      · exact ⟨v, fired, answer, q, htv, hm⟩
    obtain ⟨v, fired, answer, q, htv, hm⟩ := hmoves
    have hself := hm.self_succ
    obtain ⟨a', hq, hlt⟩ | ⟨r, hq⟩ := Work.left_of_awaitAll hm.leads <;> rw [hq] at hself
    · exact ih a'.left hlt (by omega) hself rfl
    · exact ⟨v + 1, r, hself⟩

end

/-- who has taken a promise has it from the slot, or has put a new one there -/
theorem taken {fired : Bool} {answer : Answering} {q : Progress Cycle Work}
    (hm : E.Moves t i w fired answer q) (hq : q.self.ensure? = some (.spawning k)) :
    (E.cells (t + 1)).slot = k ∧
      (E.cells (t + 1) = E.cells t ∨ ∀ u, u ≤ t → (E.cells u).slot < k) := by
  rw [hm.cells_succ]
  obtain hl | ⟨e, _, hmove⟩ := hm.work.asking hq
  · cases hl
  · obtain ⟨h, rfl⟩ | ⟨h, rfl⟩ := hmove.taken rfl
    · exact ⟨by rw [h], .inl h⟩
    · refine ⟨by rw [h]; rfl, .inr fun u hu => ?_⟩
      rw [(numbered t).length]
      exact Nat.lt_succ_of_le (slot_mono hu)

/-- **Confirmations are kept.**  Let the promise of the build hold a configuration at some moment,
and let callers ask for confirmations, wait, shut the cycle down and so on in any order.  Then the
slot moves on only from a resolved promise, and who takes a promise takes the one that stays in the
slot, or a new one that it has put there.  Every promise that was ever in the slot is resolved or
has a keeper: a task that has not ended, whoever is about to start one for it, or the build that is
to ask for the first one.  A keeper's move resolves the promise or leaves a keeper with fewer moves,
and a task that has ended has resolved its promise.  So whoever waits for a confirmation waits for a
promise that was in the slot, and has its reply if no process rests for good. -/
theorem confirmations_kept {T : Nat} {cfg : IndexConfiguration}
    (hok : (E.cells T).outcome.slot = some (.ok cfg)) :
    (∀ t, (E.cells (t + 1)).slot = (E.cells t).slot ∨ (E.cells t).Confirmed (E.cells t).slot) ∧
    (∀ t i w fired answer q k, E.Moves t i w fired answer q →
      q.self.ensure? = some (.spawning k) →
        (E.cells (t + 1)).slot = k ∧
          (E.cells (t + 1) = E.cells t ∨ ∀ u, u ≤ t → (E.cells u).slot < k)) ∧
    (∀ t u k, u ≤ t → (E.cells u).slot = k → ¬ (E.cells t).Confirmed k →
      (∃ i w n, E.proc? t i = some w ∧ w.Keeps k n) ∨
        k = 0 ∧ (E.cells t).outcome.slot = none) ∧
    (∀ t i w n fired answer q k, E.Moves t i w fired answer q → w.Keeps k n →
      k ≤ (E.cells t).slot → (E.cells (t + 1)).Confirmed k ∨
        ∃ j w' n', n' < n ∧ E.proc? (t + 1) j = some w' ∧ w'.Keeps k n') ∧
    (∀ t i m how, E.proc? t i = some (.maintenance m) → m.stage = .ended how →
      (E.cells t).Confirmed m.promise) ∧
    (∀ t i k, E.proc? t i = some (.call (.awaitingAll (.parked k))) →
      ∃ u, u ≤ t ∧ (E.cells u).slot = k) ∧
    (E.Fair → ∀ t i, E.Enters t i (.call (.awaitingAll (.configuration .reading))) →
      ∃ v r, E.proc? v i = some (.ended r)) := by
  refine ⟨fun t => ?_, fun t i w fired answer q k hm hq => taken hm hq, fun t u k hu hk hnot => ?_,
    fun t i w n fired answer q k hm hw hle => ?_,
    fun t i m how h hst => confirmed_of_ended hok h hst,
    fun t i k h => exists_slot (has_le h .waiter), fun hfair t i he => ?_⟩
  · exact (slot_succ t).imp id And.right
  · exact exists_keeper hok (hk ▸ slot_mono hu) hnot
  · by_cases hk : (E.cells (t + 1)).Confirmed k
    · exact .inl hk
    · exact .inr (keeper_step hm hw hle (not_failed hok t) hk)
  · obtain ⟨k, hk, ho⟩ | ⟨r, hr⟩ := he.call_or_ended (u := max (t + 1) T)
      (Nat.lt_of_lt_of_le (Nat.lt_succ_self t) (Nat.le_max_left _ _))
    · cases k with
      | awaitingAll a => exact awaitAll_ends hok hfair (Nat.le_max_right _ _) hk
      | _ => cases ho
    · exact ⟨_, r, hr⟩

/-- a script at whose end all processes have ended is fair -/
theorem ofScript_fair {answer : Answering} {script : List (CycleCall × List (Nat × Bool))}
    {hfresh : script.Forall fun line => line.1.Fresh} {n : Nat}
    (hlen : (script.flatMap fun line => Cue.enter (Work.call line.1) ::
      line.2.map fun move => .move move.1 move.2 answer).length ≤ n)
    (hsettled : ((ofScript answer script hfresh).run n).procs.all Work.isSettled = true) :
    (ofScript answer script hfresh).Fair :=
  fair_of_settled (e := n) (fun _ hu => ofList_rests hlen hu) fun w hw =>
    Work.next_of_isSettled (List.all_eq_true.mp hsettled w hw) _ _

def withoutUpkeep : Answering
  | .bringUpToDate => .panicked (.text "disk gone")
  | r => Answering.granting [] r

/-- two callers ask for a confirmation after the build's own was given by a task that panicked: both
see the first promise resolved, one of them renews it, and the other comes too late and shares the
new one; a third waits for it, and the cycle is shut down before the tasks begin their work -/
def raced : Builds :=
  .ofScript withoutUpkeep
    [(.submitting .claiming,
        ([0, 0, 0] ++ List.replicate 15 1 ++ List.replicate 7 2).map (·, false)),
      (.ensuring .looking, []), (.ensuring .looking, [3, 4, 3, 4, 4, 4].map (·, false)),
      (.awaitingAll (.configuration .reading), [5, 5, 3, 4].map (·, false)),
      (.shuttingDown .claiming, [8, 8, 6, 6, 6, 5, 7, 7, 7].map (·, false))]
    ⟨.submit, .ensure, .ensure, .awaitAll, .shutDown⟩

theorem raced_fair : raced.Fair :=
  ofScript_fair (n := 49) (by decide) (by decide +kernel)

/-- the promise that was renewed is shared, waited for and kept, and the caller has its reply -/
theorem confirmations_kept_raced :
    (∃ cfg, (raced.cells 16).outcome.slot = some (.ok cfg)) ∧
    ((raced.cells 31).slot ≠ (raced.cells 30).slot ∧
      (raced.cells 30).Confirmed (raced.cells 30).slot) ∧
    (¬ (raced.cells 37).Confirmed 1 ∧
      raced.proc? 37 5 = some (.call (.awaitingAll (.parked 1))) ∧
      ∃ i w n, raced.proc? 37 i = some w ∧ w.Keeps 1 n) ∧
    ∃ v r, raced.proc? v 5 = some (.ended r) := by
  have hslot : ((raced.cells 16).outcome.slot).any Except.toBool = true := by decide +kernel
  obtain ⟨o, ho, hcfg⟩ := (Option.any_eq_true ..).mp hslot
  cases o with
  | error e => cases hcfg
  | ok cfg =>
    obtain ⟨hsucc, _, hkept, _, _, hwaiter, hfair⟩ := confirmations_kept ho
    have hrenewed : (raced.cells 31).slot ≠ (raced.cells 30).slot := by decide +kernel
    have hopen : ¬ (raced.cells 37).Confirmed 1 := by decide +kernel
    have hnone : ¬ (raced.cells 37).outcome.slot = none := by
      rw [(cells_keep (by decide)).outcome _ ho]
      nofun
    have hparked : raced.proc? 37 5 = some (.call (.awaitingAll (.parked 1))) := rfl
    obtain ⟨u, hu, hu'⟩ := hwaiter 37 5 1 hparked
    exact ⟨⟨cfg, ho⟩, ⟨hrenewed, (hsucc 30).resolve_left hrenewed⟩,
      ⟨hopen, hparked, (hkept 37 u 1 hu hu' hopen).resolve_right fun h => hnone h.2⟩,
      hfair raced_fair 34 5 ⟨rfl, rfl⟩⟩

end Execution

end IndexCoordinator
