import IndexCoordinator.Proofs.Balance
import IndexCoordinator.Proofs.Cycle.Effect

/-!
# One build

The build of a cycle is started once, by the one submission that claims it, and it alone resolves
the promise of the build.

* `Work.builds`              a build, or a submission that is going to start it;
* `Execution.one_builder`    at every moment there is at most one of these;
* `Execution.outcome_succ`   the outcome changes only when the build resolves it.
-/

namespace IndexCoordinator

/-- executions of one new cycle with any callers -/
abbrev Builds :=
  Execution Work.next Work.Begins fun c =>
    ∃ settings generation, c = Cycle.ofGeneration settings generation

def Cycle.buildsLeft (c : Cycle) : Nat := if c.buildSubmitted then 0 else 1

namespace Work

def builds : Work → Bool
  | .genesis _ => true
  | .call (.submitting .advancing) => true
  | .call (.submitting .spawning) => true
  | _ => false

theorem builds_of_operation {k : CycleCall} (h : k.operation ≠ .submit) :
    (Work.call k).builds = false := by
  cases k with
  | submitting s => exact absurd rfl h
  | _ => rfl

section
variable {w : Work} {c : Cycle} {fired : Bool} {answer : Answering} {q : Progress Cycle Work}

theorem Onward.countP_builds {w' : Work} {l : List Work} (h : Onward w w' l)
    (hw : w ≠ .call (.submitting .claiming)) :
    (w' :: l).countP builds = [w].countP builds := by
  cases h with
  | go hk hk' =>
    have hk'' := builds_of_operation (hk'.trans_ne hk)
    simp [builds_of_operation hk, hk'']
  | stop r hk =>
    have hr : (ended r).builds = false := rfl
    simp [builds_of_operation hk, hr]
  | won | lost => exact absurd rfl hw
  | _ => rfl

theorem balanced_builders : Run.Balanced next (fun _ => false) builds Cycle.buildsLeft := by
  intro fired answer c w q h
  simp only [List.countP_false, Function.const_apply, Nat.zero_add]
  by_cases hw : w = .call (.submitting .claiming)
  · subst hw
    cases hb : c.buildSubmitted <;>
      simp only [Work.next, CycleCall.next, Submission.next, hb] at h <;> cases h
    · simp [Cycle.buildsLeft, hb, builds]
    · simp [Cycle.buildsLeft, hb, builds]
  · obtain ⟨he, ho⟩ := of_next h
    rw [ho.countP_builds hw, Cycle.buildsLeft, Cycle.buildsLeft, he.buildSubmitted hw]

end

end Work

namespace Run

/-- there is one builder, once the build is submitted -/
def Submitted (r : Run Cycle Work) : Prop :=
  r.procs.countP Work.builds = if r.shared.buildSubmitted then 1 else 0

theorem Reachable.submitted {r : Run Cycle Work}
    (h : Reachable Work.next Work.Begins
      (fun c => ∃ settings generation, c = Cycle.ofGeneration settings generation) r) :
    r.Submitted := by
  have hstart (c : Cycle) (hc : ∃ settings generation, c = Cycle.ofGeneration settings generation) :
      c.buildsLeft = 1 := by
    obtain ⟨settings, generation, rfl⟩ := hc
    rfl
  have henter (c : Cycle) (w : Work) (hw : Work.Begins c w) : w.builds = false := by
    obtain ⟨k, hk, rfl⟩ := hw
    cases hk <;> rfl
  have hsum := h.balance hstart henter Work.balanced_builders
  simp only [List.countP_false, Function.const_apply, Nat.zero_add, Cycle.buildsLeft] at hsum
  unfold Submitted
  by_cases hs : r.shared.buildSubmitted = true
  · rw [if_pos hs] at hsum ⊢
    exact hsum
  · rw [if_neg hs] at hsum ⊢
    omega

end Run

namespace Execution

variable {E : Builds}

/-- **There is at most one builder.** -/
theorem one_builder {t i j : Nat} {w w' : Work} (hi : E.proc? t i = some w)
    (hj : E.proc? t j = some w') (hw : w.builds = true) (hw' : w'.builds = true) : i = j := by
  have hcount : (E.run t).procs.countP Work.builds ≤ 1 := by
    have h := (E.reachable t).submitted
    unfold Run.Submitted at h
    split at h <;> omega
  exact unique_of_countP_le hcount hi hj hw hw'

theorem outcome_succ (t : Nat) :
    (E.cells (t + 1)).outcome = (E.cells t).outcome ∨
      ∃ i o fired answer q, E.Moves t i (.genesis (.resolving o)) fired answer q ∧
        (E.cells (t + 1)).outcome = (E.cells t).outcome.resolve o := by
  obtain h | ⟨i, w, fired, answer, q, hm⟩ := cells_succ (E := E) t
  · exact .inl (by rw [h])
  · rw [hm.cells_succ]
    obtain h | ⟨o, rfl, h⟩ := (Work.of_next hm.leads).1.outcome
    · exact .inl h
    · exact .inr ⟨i, o, fired, answer, q, hm, h⟩

end Execution

end IndexCoordinator
