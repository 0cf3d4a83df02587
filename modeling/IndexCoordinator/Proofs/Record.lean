import IndexCoordinator.Proofs.Silence

/-!
# The record of one process

The trace of an execution mixes what all its processes leave behind.  A `record` is the share of one
process, in order, and `turnsOf` counts how often that process had its turn.

* `Execution.record_succ`     one moment of a process and of its record;
* `Execution.Enters.record_invariant`   what a process and its record keep together;
* `Execution.turnsOf_add_rank_le`   a process that comes nearer to its goal with every turn reaches
                              it after so many turns, whatever the others do.
-/

namespace IndexCoordinator

namespace Execution

variable {σ π : Type} {next : Program σ π} {starts : σ → π → Prop} {initial : σ → Prop}

section
variable (E : Execution next starts initial) (i : Nat)

/-- the events that a process has left before a moment, in order -/
def record : Nat → List Event
  | 0 => []
  | t + 1 =>
    record t ++
      if (E.cue t).isMoveOf i then (E.run (t + 1)).trace.drop (E.run t).trace.length else []

/-- how many turns a process has had in a while -/
def turnsOf (t n : Nat) : Nat := (List.range n).countP fun k => (E.cue (t + k)).isMoveOf i

end

variable {E : Execution next starts initial} {i j t u n : Nat} {p : π}

/-! ## records -/

theorem Moves.record_succ {fired : Bool} {answer : Answering} {q : Progress σ π}
    (h : E.Moves t i p fired answer q) :
    E.record j (t + 1) = E.record j t ++ if i = j then q.events else [] := by
  have hdrop : (E.run (t + 1)).trace.drop (E.run t).trace.length = q.events := by
    rw [h.run, Run.trace_commit, List.drop_left]
  rw [record, h.cue, hdrop]
  simp [Cue.isMoveOf]

theorem trace_succ (t : Nat) :
    (E.run (t + 1)).trace = (E.run t).trace ∨
      ∃ i p fired answer q, E.Moves t i p fired answer q := by
  obtain h | ⟨p, _, _, h⟩ | h := tick (E := E) t
  · exact .inl (congrArg Run.trace h)
  · left
    rw [h]
    rfl
  · exact .inr h

theorem record_of_trace_eq (h : (E.run (t + 1)).trace = (E.run t).trace) :
    E.record j (t + 1) = E.record j t := by
  rw [record, h, List.drop_length, ite_self, List.append_nil]

theorem record_succ (h : E.proc? t i = some p) :
    (E.proc? (t + 1) i = some p ∧ E.record i (t + 1) = E.record i t) ∨
      ∃ fired answer q, E.Moves t i p fired answer q ∧
        E.record i (t + 1) = E.record i t ++ q.events := by
  obtain he | ⟨j, p', fired, answer, q, hm⟩ := trace_succ (E := E) t
  · obtain h' | ⟨fired, answer, q, hm⟩ := proc_succ h
    · exact .inl ⟨h', record_of_trace_eq he⟩
    · exact .inr ⟨fired, answer, q, hm, by simpa using hm.record_succ (j := i)⟩
  · have hrecord := hm.record_succ (j := i)
    by_cases e : j = i
    · subst e
      obtain rfl : p = p' := Option.some.inj (h.symm.trans hm.proc)
      rw [if_pos rfl] at hrecord
      exact .inr ⟨fired, answer, q, hm, hrecord⟩
    · rw [if_neg e, List.append_nil] at hrecord
      refine .inl ⟨?_, hrecord⟩
      rw [hm.proc_succ (proc?_lt h), if_neg (Ne.symm e)]
      exact h

theorem record_of_absent (h : E.proc? t i = none) : E.record i t = [] := by
  induction t with
  | zero => rfl
  | succ t ih =>
    have hnone : E.proc? t i = none :=
      List.getElem?_eq_none_iff.mpr
        (Nat.le_trans (length_succ (E := E) t) (List.getElem?_eq_none_iff.mp h))
    obtain he | ⟨j, p, fired, answer, q, hm⟩ := trace_succ (E := E) t
    · rw [record_of_trace_eq he, ih hnone]
    · have hj : j ≠ i := by
        rintro rfl
        cases hm.proc.symm.trans hnone
      rw [hm.record_succ, if_neg hj, ih hnone, List.append_nil]

theorem Enters.record_succ (h : E.Enters t i p) : E.record i (t + 1) = [] := by
  have hnone : E.proc? t i = none := List.getElem?_eq_none_iff.mpr (Nat.le_of_eq h.2)
  obtain he | ⟨j, p', fired, answer, q, hm⟩ := trace_succ (E := E) t
  · rw [record_of_trace_eq he, record_of_absent hnone]
  · cases h.1.symm.trans hm.cue

/-- **What a process and its record keep together.**  It holds when the process comes in and is kept
by its moves. -/
theorem Enters.record_invariant {t₀ : Nat} {p₀ : π} {I : List Event → π → Prop}
    (h : E.Enters t₀ i p₀) (hbase : I [] p₀)
    (hstep : ∀ u p fired answer q, t₀ < u → u < t → E.Moves u i p fired answer q →
      I (E.record i u) p → I (E.record i u ++ q.events) q.self)
    (ht : t₀ < t) : ∃ p, E.proc? t i = some p ∧ I (E.record i t) p := by
  induction t, (show t₀ + 1 ≤ t from ht) using Nat.le_induction with
  | base => exact ⟨p₀, h.proc_succ, h.record_succ ▸ hbase⟩
  | succ t ht' ih =>
    obtain ⟨p, hp, hI⟩ :=
      ih (fun u p fired answer q h1 h2 => hstep u p fired answer q h1 (by omega)) ht'
    obtain ⟨hp', hrec⟩ | ⟨fired, answer, q, hm, hrec⟩ := Execution.record_succ hp
    · exact ⟨p, hp', hrec ▸ hI⟩
    · exact ⟨q.self, hm.self_succ, hrec ▸ hstep t p fired answer q ht' (Nat.lt_succ_self t) hm hI⟩

/-! ## turns -/

theorem turnsOf_succ (n : Nat) :
    E.turnsOf i t (n + 1) = E.turnsOf i t n + if (E.cue (t + n)).isMoveOf i then 1 else 0 := by
  simp [turnsOf, List.range_succ]

/-- **So many turns and no more.**  A process that is not over moves when its turn comes, and is then
over or has a smaller rank. -/
theorem turnsOf_add_rank_le (rank : π → Nat) (isOver : π → Prop)
    (hstay : ∀ u p fired answer q, E.Moves u i p fired answer q → isOver p → isOver q.self)
    (hgo : ∀ u p fired answer, t ≤ u → u < t + n → E.proc? u i = some p → ¬ isOver p →
      E.cue u = .move i fired answer →
      ∃ q, E.Moves u i p fired answer q ∧ (isOver q.self ∨ rank q.self < rank p))
    (h : E.proc? t i = some p) :
    ∃ p', E.proc? (t + n) i = some p' ∧ (isOver p' ∨ E.turnsOf i t n + rank p' ≤ rank p) := by
  induction n with
  | zero => exact ⟨p, h, .inr (by simp [turnsOf])⟩
  | succ n ih =>
    obtain ⟨p₁, hp₁, hrank⟩ :=
      ih fun u p fired answer htu hun => hgo u p fired answer htu (by omega)
    rw [turnsOf_succ]
    cases hc : (E.cue (t + n)).isMoveOf i with
    | false =>
      obtain hp' | ⟨fired, answer, q, hm⟩ := proc_succ hp₁
      · exact ⟨p₁, hp', by simpa using hrank⟩
      · rw [hm.cue] at hc
        simp [Cue.isMoveOf] at hc
    | true =>
      by_cases ho : isOver p₁
      · obtain hp' | ⟨fired, answer, q, hm⟩ := proc_succ hp₁
        · exact ⟨p₁, hp', .inl ho⟩
        · exact ⟨q.self, hm.self_succ, .inl (hstay _ _ _ _ _ hm ho)⟩
      · obtain ⟨fired, answer, hcue⟩ := Cue.exists_move hc
        obtain ⟨q, hm, hq⟩ :=
          hgo (t + n) p₁ fired answer (Nat.le_add_right t n) (by omega) hp₁ ho hcue
        refine ⟨q.self, hm.self_succ, hq.imp_right fun hlt => ?_⟩
        have hle := hrank.resolve_left ho
        rw [if_pos rfl]
        omega

end Execution

end IndexCoordinator
