import IndexCoordinator.Proofs.Cycle.Hints
import IndexCoordinator.Proofs.Cycle.Sharing

/-!
# Reporting that the indexes are ready

A cycle reports that its indexes are ready when the build and the current confirmation are both
resolved.  What stands behind the confirmation is the task that resolved it; so the report is as
good as the end of that task.

* `Execution.Knew`          what a task has seen of the build that came to its end in a given way;
* `Execution.SeesReady`     a caller that reads the three cells one after the other;
* `Execution.ready_reports` what the report tells;
* `Execution.not_built_when_ready`   it does not tell that there is a configuration: a task that the
                            shutdown has released confirms what is not built yet, and the build may
                            fail afterwards.
-/

namespace IndexCoordinator

/-- a pass over storage, whether it went through or was cut short by a panic that was caught -/
def MaintenanceEnd.isPass : MaintenanceEnd → Bool
  | .passed => true
  | .caught _ => true
  | _ => false

/-- how a task comes to its end, once that is decided -/
def MaintenanceStage.how? : MaintenanceStage → Option MaintenanceEnd
  | .confirming how => some how
  | .ended how => some how
  | _ => none

namespace Execution

section
variable (E : Builds)

def Knew (t : Nat) : MaintenanceEnd → Prop
  | .abandoned => ∃ u, u < t ∧ E.Abandoned u
  | .buildFailed => ∃ e, (E.cells t).outcome.slot = some (.error e)
  | _ => ∃ cfg, (E.cells t).outcome.slot = some (.ok cfg)

/-- a caller that reads the flag of the build, then the slot, and then the flag of the promise that
it found there, reports that the indexes are ready -/
def SeesReady (t u v : Nat) : Prop :=
  (E.cells t).outcome.done = true ∧ ((E.cells v).confirmation (E.cells u).slot).done = true

end

variable {E : Builds} {t u v i : Nat}

theorem seesReady_self : E.SeesReady t t t ↔ (E.cells t).areIndexesReady = true := by
  simp [SeesReady, Cycle.areIndexesReady]

theorem done_outcome (t : Nat) : (E.cells t).outcome.done = (E.cells t).outcome.slot.isSome := by
  induction t with
  | zero =>
    obtain ⟨settings, generation, hcells⟩ := cells_zero (E := E)
    rw [hcells]
    rfl
  | succ t ih =>
    obtain he | ⟨_, o, _, _, _, _, he⟩ := outcome_succ (E := E) t <;> rw [he]
    · exact ih
    · unfold Promise.resolve
      split
      · exact ih
      · rfl

theorem Knew.mono {how : MaintenanceEnd} (h : E.Knew t how) (htu : t ≤ u) : E.Knew u how := by
  cases how with
  | abandoned =>
    obtain ⟨w, hw, ha⟩ := h
    exact ⟨w, Nat.lt_of_lt_of_le hw htu, ha⟩
  | _ => exact h.imp fun _ hs => (cells_keep htu).outcome _ hs

/-- **What a task has seen** whose end is decided. -/
theorem knew {m : Maintenance} {how : MaintenanceEnd} (h : E.proc? t i = some (.maintenance m))
    (hst : m.stage.how? = some how) : E.Knew t how := by
  induction t generalizing m with
  | zero => cases h
  | succ t ih =>
    have hle := Nat.le_succ t
    obtain h' | ⟨m₀, fired, answer, p, hm, hmove, rfl⟩ | hnew := task_of_succ h
    · exact (ih h' hst).mono hle
    · have hprepared := prepared hm.proc
      have hbuilt (h : E.WasOpen t) : ∃ cfg, (E.cells (t + 1)).outcome.slot = some (.ok cfg) := by
        obtain ⟨cfg, hc⟩ := (h.mono hle).completed
        exact ⟨cfg, hc.resolved⟩
      cases hmove with
      | failed _ hslot =>
        cases hst
        exact ⟨_, (cells_keep hle).outcome _ hslot⟩
      | abandon _ hslot hcancelled =>
        cases hst
        exact ⟨t, Nat.lt_succ_self t, requested_of_cancelled hcancelled, hslot⟩
      | skip hst₀ =>
        cases hst
        rw [hst₀] at hprepared
        exact hprepared.imp fun _ hs => (cells_keep hle).outcome _ hs
      | undeleted hst₀ =>
        cases hst
        rw [hst₀] at hprepared
        exact hbuilt hprepared
      | updated hst₀ | outdated hst₀ =>
        cases hst
        rw [hst₀] at hprepared
        exact hbuilt hprepared.1
      | confirm hst₀ =>
        cases hst
        exact (ih hm.proc (congrArg MaintenanceStage.how? hst₀)).mono hle
      | _ => cases hst
    · rw [hnew] at hst
      cases hst

/-- a task that was served and is not to blame on the shutdown made its pass -/
theorem Served.isPass {how : MaintenanceEnd} (h : E.Served t i how)
    (hopen : (E.cells t).isShutdownRequested = false) : how.isPass = true := by
  cases how with
  | buildFailed => cases h
  | abandoned | skipped => cases hopen.symm.trans h
  | passed | caught => rfl

/-- **What a cycle tells that reports ready.**  Behind the report stands a task that has ended and
has resolved the promise that the caller found in the slot.  Either the build has completed with a
configuration, and then the task has made its pass over storage unless the shutdown is requested;
or the build has failed, and then the task was abandoned: the cycle was shut down before the build
ended. -/
theorem ready_reports (h : E.SeesReady t u v) (htu : t ≤ u) (huv : u ≤ v) :
    ∃ i how, E.proc? v i = some (.maintenance ⟨(E.cells u).slot, .ended how⟩) ∧ E.Served v i how ∧
      ((∃ cfg, E.Completed v cfg) ∧
          ((E.cells v).isShutdownRequested = false → how.isPass = true) ∨
        (∃ e, (E.cells v).outcome.slot = some (.error e)) ∧ how = .abandoned ∧
          ∃ w, w < v ∧ E.Abandoned w) := by
  obtain ⟨hbuild, hconf⟩ := h
  rw [(numbered v).done] at hconf
  obtain ⟨i, how, hi, hserved⟩ := server_of_confirmed hconf
  refine ⟨i, how, hi, hserved, ?_⟩
  rw [done_outcome] at hbuild
  obtain ⟨o, ho⟩ := Option.isSome_iff_exists.mp hbuild
  replace ho := (cells_keep (Nat.le_trans htu huv)).outcome _ ho
  cases o with
  | ok cfg => exact .inl ⟨⟨cfg, completed ho⟩, hserved.isPass⟩
  | error e =>
    have hknew := knew hi rfl
    cases how with
    | abandoned => exact .inr ⟨⟨e, ho⟩, rfl, hknew⟩
    | buildFailed => cases hserved
    | skipped | passed | caught =>
      obtain ⟨cfg, hcfg⟩ := hknew
      cases ho.symm.trans hcfg

/-- a caller asks for a confirmation, the cycle is shut down while its build is under way, and the
task is abandoned; then the one index cannot be opened, and the build fails -/
def unbuilt : Builds :=
  .ofScript withoutIndexes
    [(.submitting .claiming, [0, 0, 0].map (·, false)),
      (.ensuring .looking, [2, 2, 2].map (·, false)),
      (.shuttingDown .claiming, ([4, 4, 3, 3] ++ List.replicate 8 1).map (·, false))]
    ⟨.submit, .ensure, .shutDown⟩

theorem unbuilt_ready : (unbuilt.cells 21).areIndexesReady = true := by decide +kernel

/-- one cycle reports ready after a pass, the other after its build has failed -/
theorem ready_reports_unbuilt :
    (∃ i how, shared.proc? 49 i = some (.maintenance ⟨1, .ended how⟩) ∧ how.isPass = true ∧
      ∃ cfg, shared.Completed 49 cfg) ∧
    (∃ i, unbuilt.proc? 21 i = some (.maintenance ⟨0, .ended .abandoned⟩)) ∧
    ∃ e, (unbuilt.cells 21).outcome.slot = some (.error e) := by
  have hready : shared.SeesReady 49 49 49 := seesReady_self.mpr (by decide +kernel)
  have hopen : (shared.cells 49).isShutdownRequested = false := by decide +kernel
  have hslot : (shared.cells 49).slot = 1 := by decide +kernel
  have herror : ((unbuilt.cells 21).outcome.slot).any (!Except.toBool ·) = true := by
    decide +kernel
  have hzero : (unbuilt.cells 21).slot = 0 := by decide +kernel
  obtain ⟨o, ho, he⟩ := (Option.any_eq_true ..).mp herror
  obtain ⟨i, how, hi, _, hend⟩ := ready_reports hready (Nat.le_refl _) (Nat.le_refl _)
  obtain ⟨j, how', hj, _, hend'⟩ :=
    ready_reports (seesReady_self.mpr unbuilt_ready) (Nat.le_refl _) (Nat.le_refl _)
  rw [hslot] at hi
  rw [hzero] at hj
  refine ⟨⟨i, how, hi, ?_⟩, ?_⟩
  · obtain ⟨hcfg, hpass⟩ | ⟨_, _, w, _, hw, _⟩ := hend
    · exact ⟨hpass hopen, hcfg⟩
    · have hlate := (cells_keep (E := shared) (t := w) (u := 49) (by omega)).shutdown hw
      cases hopen.symm.trans hlate
  · obtain ⟨⟨cfg, hc⟩, _⟩ | ⟨herr, rfl, _⟩ := hend'
    · cases ho.symm.trans hc.resolved
      cases he
    · exact ⟨⟨j, hj⟩, herr⟩

/-- a cycle that reports ready need not have a configuration -/
theorem not_built_when_ready :
    ¬ ∀ (E : Builds) t, (E.cells t).areIndexesReady = true →
      ∃ cfg, (E.cells t).outcome.slot = some (.ok cfg) := by
  intro h
  obtain ⟨cfg, hcfg⟩ := h unbuilt 21 unbuilt_ready
  have herror : ((unbuilt.cells 21).outcome.slot).any (!Except.toBool ·) = true := by
    decide +kernel
  rw [hcfg] at herror
  cases herror

end Execution

end IndexCoordinator
