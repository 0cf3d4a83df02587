import IndexCoordinator.Proofs.Execution

/-!
# Silent processes

A process is silent if none of its moves changes a cell, starts a process or leaves an event.  Such
a process can be taken out of its execution: all others stand where they stood, and whatever they
can still do with it they can do without it.

* `Run.AgreeBut`      two runs that differ at most in where one process stands;
* `Run.AgreeBut.followAll`   they still do after cues that do not move this process;
* `Execution.Silent.exists_without`   the execution in which a silent process never moves.
-/

namespace IndexCoordinator

variable {σ π : Type} {next : Program σ π}

namespace Cue

def isMoveOf (i : Nat) : Cue π → Bool
  | .move j _ _ => j == i
  | _ => false

theorem exists_move {i : Nat} {c : Cue π} (h : c.isMoveOf i = true) :
    ∃ fired answer, c = .move i fired answer := by
  unfold isMoveOf at h
  split at h
  · next j fired answer =>
    obtain rfl : j = i := by simpa using h
    exact ⟨fired, answer, rfl⟩
  · cases h

/-- nothing happens when the process would move -/
def without (i : Nat) (c : Cue π) : Cue π := if c.isMoveOf i then .rest else c

end Cue

namespace Run

def followAll (next : Program σ π) (r : Run σ π) (cues : List (Cue π)) : Run σ π :=
  cues.foldl (follow next) r

/-- two runs that differ at most in where one process stands -/
structure AgreeBut (i : Nat) (r r' : Run σ π) : Prop where
  shared : r'.shared = r.shared
  trace : r'.trace = r.trace
  length : r'.procs.length = r.procs.length
  others : ∀ j, j ≠ i → r'.procs[j]? = r.procs[j]?

namespace AgreeBut

variable {i : Nat} {r r' r'' : Run σ π}

theorem refl (i : Nat) (r : Run σ π) : AgreeBut i r r := ⟨rfl, rfl, rfl, fun _ _ => rfl⟩

theorem symm (h : AgreeBut i r r') : AgreeBut i r' r :=
  ⟨h.shared.symm, h.trace.symm, h.length.symm, fun j hj => (h.others j hj).symm⟩

theorem trans (h : AgreeBut i r r') (h' : AgreeBut i r' r'') : AgreeBut i r r'' where
  shared := h'.shared.trans h.shared
  trace := h'.trace.trans h.trace
  length := h'.length.trans h.length
  others j hj := (h'.others j hj).trans (h.others j hj)

theorem invoke (h : AgreeBut i r r') (p : π) : AgreeBut i (r.invoke p) (r'.invoke p) where
  shared := h.shared
  trace := h.trace
  length := by simp [h.length]
  others j hj := by
    simp only [procs_invoke, List.getElem?_append, h.length, h.others j hj]

theorem commit (h : AgreeBut i r r') (k : Nat) (q : Progress σ π) :
    AgreeBut i (r.commit k q) (r'.commit k q) where
  shared := rfl
  trace := by simp [h.trace]
  length := by simp [procs_commit, h.length]
  others j hj := by
    simp only [procs_commit, List.getElem?_append, List.length_set, h.length, List.getElem?_set,
      h.others j hj]

theorem follow (h : AgreeBut i r r') {c : Cue π} (hc : c.isMoveOf i = false) :
    AgreeBut i (r.follow next c) (r'.follow next c) := by
  cases c with
  | rest => exact h
  | enter p => exact h.invoke p
  | move j fired answer =>
    have hj : j ≠ i := by simpa [Cue.isMoveOf] using hc
    unfold Run.follow
    simp only [h.others j hj, h.shared]
    cases r.procs[j]? with
    | none => exact h
    | some p =>
      simp only
      cases (next fired r.shared p).under answer with
      | none => exact h
      | some q => exact h.commit j q

theorem followAll (h : AgreeBut i r r') {cues : List (Cue π)}
    (hc : ∀ c ∈ cues, c.isMoveOf i = false) :
    AgreeBut i (r.followAll next cues) (r'.followAll next cues) := by
  induction cues generalizing r r' with
  | nil => exact h
  | cons c cues ih =>
    exact ih (h.follow (hc c List.mem_cons_self)) fun x hx => hc x (List.mem_cons_of_mem c hx)

end AgreeBut

end Run

namespace Execution

variable {starts : σ → π → Prop} {initial : σ → Prop}

/-- no move of a process changes a cell, starts a process or leaves an event -/
def Silent (E : Execution next starts initial) (i : Nat) : Prop :=
  ∀ t p fired answer q, E.Moves t i p fired answer q →
    q.shared = E.cells t ∧ q.spawned = [] ∧ q.events = []

variable {E : Execution next starts initial} {i : Nat}

theorem Moves.agreeBut {t : Nat} {p : π} {fired : Bool} {answer : Answering} {q : Progress σ π}
    (h : E.Moves t i p fired answer q)
    (hq : q.shared = E.cells t ∧ q.spawned = [] ∧ q.events = []) :
    Run.AgreeBut i (E.run t) (E.run (t + 1)) := by
  obtain ⟨hshared, hspawned, hevents⟩ := hq
  rw [h.run]
  refine ⟨hshared, by simp [hevents], by simp [Run.procs_commit, hspawned], fun j hj => ?_⟩
  rw [Run.procs_commit, hspawned, List.append_nil]
  exact List.getElem?_set_ne (Ne.symm hj)

theorem Silent.agreeBut_succ (h : E.Silent i) {t : Nat} (hc : (E.cue t).isMoveOf i = true) :
    Run.AgreeBut i (E.run t) (E.run (t + 1)) := by
  obtain he | ⟨p, hp, _, _⟩ | ⟨j, p, fired, answer, q, hm⟩ := tick (E := E) t
  · rw [he]
    exact .refl i _
  · rw [hp.1] at hc
    cases hc
  · rw [hm.cue] at hc
    obtain rfl : j = i := by simpa [Cue.isMoveOf] using hc
    exact hm.agreeBut (h t p fired answer q hm)

theorem Silent.agreeBut_after (h : E.Silent i) (t : Nat) :
    Run.AgreeBut i (E.run t) (Run.after next E.first (fun u => (E.cue u).without i) t) := by
  induction t with
  | zero => exact .refl i _
  | succ t ih =>
    show Run.AgreeBut i _ (Run.follow next _ ((E.cue t).without i))
    unfold Cue.without
    by_cases hc : (E.cue t).isMoveOf i = true
    · rw [if_pos hc]
      exact (h.agreeBut_succ hc).symm.trans ih
    · rw [if_neg hc, run_succ]
      exact ih.follow (Bool.not_eq_true _ ▸ hc)

/-- **A silent process makes no difference.**  Without its moves the same happens to all others,
and from any moment on the same cues lead all others to the same places. -/
theorem Silent.exists_without (h : E.Silent i) :
    ∃ E' : Execution next starts initial, (∀ t, E'.cue t = (E.cue t).without i) ∧
      ∀ t cues, (∀ c ∈ cues, c.isMoveOf i = false) →
        Run.AgreeBut i ((E.run t).followAll next cues) ((E'.run t).followAll next cues) := by
  refine ⟨⟨E.first, fun t => (E.cue t).without i, E.isInitial, fun t p hp => ?_⟩, fun _ => rfl,
    fun t cues hc => (h.agreeBut_after t).followAll hc⟩
  have hcue : E.cue t = .enter p := by
    unfold Cue.without at hp
    split at hp
    · cases hp
    · exact hp
  rw [(h.agreeBut_after t).shared]
  exact E.mayEnter t p hcue

end Execution

end IndexCoordinator
