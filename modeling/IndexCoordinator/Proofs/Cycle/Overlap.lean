import IndexCoordinator.Proofs.Cycle.Keeping
import IndexCoordinator.Proofs.Cycle.Sharing

/-!
# Passes that overlap

Nothing keeps two maintenance tasks of a cycle apart but the promises: a request puts a new promise
into the slot, and so starts the next task, only when the promise before it is resolved.  A promise
that has one task is resolved by it, after its pass; then the next pass comes later.  A promise that
is shared has several tasks, which are at work together, and is resolved by the first of them.

* `MaintenanceStage.isAtWork`      from the call that deletes stale ids to the end of the call that
                                   brings the indexes up to date;
* `Execution.older_is_shared`      of two tasks that have not ended the older promise is shared;
* `Execution.overlap_shares`       so passes overlap only where requests share a promise;
* `Execution.not_one_at_work`      and there they do.
-/

namespace IndexCoordinator

/-- whether a task is in the middle of its pass over storage -/
def MaintenanceStage.isAtWork : MaintenanceStage → Bool
  | .deleting => true
  | .entering => true
  | .updating => true
  | _ => false

theorem MaintenanceStage.left_of_isAtWork {s : MaintenanceStage} (h : s.isAtWork = true) :
    0 < s.left := by
  cases s with
  | deleting | entering | updating => simp [left]
  | _ => cases h

namespace Execution

variable {E : Builds} {t i j k : Nat} {m m' : Maintenance}

theorem Server.ne (h : E.Server t j k) (hi : E.proc? t i = some (.maintenance m))
    (hleft : 0 < m.stage.left) : j ≠ i := by
  rintro rfl
  obtain ⟨how, hj, _⟩ := h
  cases hi.symm.trans hj
  cases hleft

/-- a promise has a second task: one that is told, or one that has ended and has resolved it -/
def SharedWith (E : Builds) (t i j k : Nat) : Prop :=
  ∃ l stage, l ≠ i ∧ E.proc? t l = some (.maintenance ⟨k, stage⟩) ∧ (l = j ∨ E.Server t l k)

theorem older_is_shared (hi : E.proc? t i = some (.maintenance m))
    (hj : E.proc? t j = some (.maintenance m')) (hleft : 0 < m.stage.left) (hne : i ≠ j)
    (hle : m.promise ≤ m'.promise) : E.SharedWith t i j m.promise := by
  obtain heq | hlt := Nat.eq_or_lt_of_le hle
  · exact ⟨j, m'.stage, hne.symm, by rw [heq]; exact hj, .inl rfl⟩
  · -- the slot has moved on from the older promise, so somebody else has resolved it
    obtain ⟨l, hl⟩ := server_of_confirmed (confirmed_of_lt (Nat.lt_of_lt_of_le hlt
      (has_le hj (.task m'.stage))))
    have hserver := hl
    obtain ⟨how, hproc, _⟩ := hl
    exact ⟨l, _, hserver.ne hi hleft, hproc, .inr hserver⟩

/-- **Passes overlap only where requests share a promise.**  Of two tasks in the middle of their
passes one has its promise in common with another task, the other of the two or one that has ended
before and has resolved the promise.  So where every task has a promise of its own at most one of
them is at work at any moment. -/
theorem overlap_shares (hi : E.proc? t i = some (.maintenance m))
    (hj : E.proc? t j = some (.maintenance m')) (hwork : m.stage.isAtWork = true)
    (hwork' : m'.stage.isAtWork = true) (hne : i ≠ j) :
    m.promise ≤ m'.promise ∧ E.SharedWith t i j m.promise ∨
      m'.promise ≤ m.promise ∧ E.SharedWith t j i m'.promise := by
  obtain hle | hle := Nat.le_total m.promise m'.promise
  · exact .inl ⟨hle,
      older_is_shared hi hj (MaintenanceStage.left_of_isAtWork hwork) hne hle⟩
  · exact .inr ⟨hle,
      older_is_shared hj hi (MaintenanceStage.left_of_isAtWork hwork') hne.symm hle⟩

/-- a caller asks for a confirmation while the task of the build deletes stale ids, and its own task
begins with that, too -/
def overlapping : Builds :=
  .ofScript (.granting [])
    [(.submitting .claiming,
        ([0, 0, 0] ++ List.replicate 15 1 ++ List.replicate 3 2).map (·, false)),
      (.ensuring .looking, ([3, 3, 3] ++ List.replicate 3 4).map (·, false))]
    ⟨.submit, .ensure⟩

theorem overlapping_at_work :
    overlapping.proc? 29 2 = some (.maintenance ⟨0, .deleting⟩) ∧
      overlapping.proc? 29 4 = some (.maintenance ⟨0, .deleting⟩) :=
  ⟨rfl, rfl⟩

/-- the two tasks that are at work have the first promise in common -/
theorem overlap_shares_overlapping :
    overlapping.SharedWith 29 2 4 0 ∨ overlapping.SharedWith 29 4 2 0 := by
  obtain ⟨hi, hj⟩ := overlapping_at_work
  exact (overlap_shares hi hj rfl rfl (by decide)).imp And.right And.right

/-- two passes of a cycle may be in progress at once -/
theorem not_one_at_work :
    ¬ ∀ (E : Builds) t i j m m', E.proc? t i = some (.maintenance m) →
      E.proc? t j = some (.maintenance m') → m.stage.isAtWork = true →
        m'.stage.isAtWork = true → i = j := by
  intro h
  obtain ⟨hi, hj⟩ := overlapping_at_work
  exact absurd (h overlapping 29 2 4 _ _ hi hj rfl rfl) (by decide)

end Execution

end IndexCoordinator
