import IndexCoordinator.Proofs.Execution

/-!
# Fairness

An execution is fair if no process rests for good that could always move.

* `Execution.stays_or_moves`       where a process stands later, seen from where it stands now;
* `Execution.Enters.exists_only_move`   a process that ends with its first move;
* `Execution.Fair`                 weak fairness, process by process;
* `Execution.Fair.exists_over`     who can go on and comes nearer to its end with every move, ends;
* `Execution.fair_of_settled`      an execution that comes to rest when nobody can move is fair;
* `Execution.ofList_rests`         an execution of finitely many cues comes to rest.
-/

namespace IndexCoordinator

namespace Execution

variable {σ π : Type} {next : Program σ π} {starts : σ → π → Prop} {initial : σ → Prop}
  {E : Execution next starts initial}

theorem stays_or_moves {t u i : Nat} {p : π} (h : E.proc? t i = some p) (htu : t ≤ u) :
    E.proc? u i = some p ∨
      ∃ v fired answer q, t ≤ v ∧ v < u ∧ E.Moves v i p fired answer q := by
  induction u, htu using Nat.le_induction with
  | base => exact .inl h
  | succ u htu ih =>
    obtain ih | ⟨v, fired, answer, q, htv, hvu, hm⟩ := ih
    · obtain h' | ⟨fired, answer, q, hm⟩ := Execution.proc_succ ih
      · exact .inl h'
      · exact .inr ⟨u, fired, answer, q, htu, Nat.lt_succ_self u, hm⟩
    · exact .inr ⟨v, fired, answer, q, htv, Nat.lt_succ_of_lt hvu, hm⟩

theorem stays_of_blocked {t u i : Nat} {p : π} (hp : ∀ fired s, next fired s p = .blocked)
    (h : E.proc? t i = some p) (htu : t ≤ u) : E.proc? u i = some p := by
  obtain h' | ⟨v, fired, answer, q, _, _, hm⟩ := stays_or_moves h htu
  · exact h'
  · have hq := hm.leads
    rw [hp] at hq
    cases hq

/-- **A process that ends with its first move** has come from there to where it stands. -/
theorem Enters.exists_only_move {t u i : Nat} {p p' : π} (h : E.Enters t i p)
    (hover : ∀ fired s answer q, (next fired s p).under answer = some q →
      ∀ fired s, next fired s q.self = .blocked)
    (hp : E.proc? u i = some p') (hne : p' ≠ p) :
    ∃ v fired answer q, t < v ∧ v < u ∧ E.Moves v i p fired answer q ∧ q.self = p' := by
  obtain hstill | ⟨v, fired, answer, q, htv, hvu, hm⟩ :=
    stays_or_moves h.proc_succ (h.lt_of_proc hp)
  · cases hstill.symm.trans hp
    exact absurd rfl hne
  · have hself := stays_of_blocked (hover _ _ _ _ hm.leads) hm.self_succ hvu
    exact ⟨v, fired, answer, q, htv, hvu, hm, Option.some.inj (hself.symm.trans hp)⟩

variable (E) in
/-- a process that could move at every later moment does move -/
def Fair : Prop :=
  ∀ t i p, E.proc? t i = some p →
    (∀ u, t ≤ u → ∀ fired answer, ((next fired (E.cells u) p).under answer).isSome = true) →
    ∃ u fired answer q, t ≤ u ∧ E.Moves u i p fired answer q

/-- **Who can go on and comes nearer to its end with every move, ends.** -/
theorem Fair.exists_over (hfair : E.Fair) {t i : Nat} {p : π} (rank : π → Nat) (isOver : π → Prop)
    (hgo : ∀ u p, t ≤ u → E.proc? u i = some p → ¬ isOver p → ∀ v, u ≤ v → ∀ fired answer,
      ((next fired (E.cells v) p).under answer).isSome = true)
    (hrank : ∀ u p fired answer q, t ≤ u → E.Moves u i p fired answer q → ¬ isOver p →
      rank q.self < rank p)
    (h : E.proc? t i = some p) : ∃ u p', t ≤ u ∧ E.proc? u i = some p' ∧ isOver p' := by
  have hfrom (n : Nat) : ∀ u p, t ≤ u → E.proc? u i = some p → rank p = n →
      ∃ v p', t ≤ v ∧ E.proc? v i = some p' ∧ isOver p' := by
    induction n using Nat.strong_induction_on with
    | _ n ih =>
      intro u p htu hp hn
      by_cases ho : isOver p
      · exact ⟨u, p, htu, hp, ho⟩
      · obtain ⟨v, fired, answer, q, huv, hm⟩ := hfair u i p hp (hgo u p htu hp ho)
        have htv : t ≤ v := Nat.le_trans htu huv
        exact ih _ (hn ▸ hrank v p fired answer q htv hm ho) (v + 1) q.self (Nat.le_succ_of_le htv)
          hm.self_succ rfl
  exact hfrom _ t p (Nat.le_refl t) h rfl

/-- who can always go on until there is nothing ahead of it, comes there -/
theorem Fair.exists_done (hfair : E.Fair) (ahead : π → Nat)
    (hgo : ∀ p, ahead p ≠ 0 → ∀ fired answer s, ((next fired s p).under answer).isSome = true)
    (hahead : ∀ t i p fired answer q, E.Moves t i p fired answer q → ahead q.self < ahead p)
    {t i : Nat} {p : π} (h : E.Enters t i p) :
    ∃ u p', t < u ∧ E.proc? u i = some p' ∧ ahead p' = 0 :=
  hfair.exists_over ahead (fun p => ahead p = 0)
    (fun _ p _ _ hne v _ fired answer => hgo p hne fired answer (E.cells v))
    (fun u p fired answer q _ hm _ => hahead u i p fired answer q hm) h.proc_succ

/-- **An execution that ends with processes that cannot move is fair.** -/
theorem fair_of_settled {e : Nat} (hrest : ∀ u, e ≤ u → E.run u = E.run e)
    (hsettled : ∀ p ∈ (E.run e).procs, next false (E.cells e) p = .blocked) : E.Fair := by
  intro t i p hp hcan
  have hmax : e ≤ max t e := Nat.le_max_right t e
  obtain h | ⟨v, fired, answer, q, htv, _, hm⟩ := stays_or_moves hp (Nat.le_max_left t e)
  · have hrun := hrest _ hmax
    have hmem : p ∈ (E.run e).procs := hrun ▸ List.mem_of_getElem? h
    have hmove := hcan _ (Nat.le_max_left t e) false fun _ => .panicked .other
    have hcells : E.cells (max t e) = E.cells e := congrArg Run.shared hrun
    rw [hcells, hsettled p hmem] at hmove
    cases hmove
  · exact ⟨v, fired, answer, q, htv, hm⟩

theorem ofList_rests {first : σ} {cues : List (Cue π)} {hi : initial first}
    {he : ∀ p, .enter p ∈ cues → ∀ s, starts s p} {e u : Nat} (hlen : cues.length ≤ e)
    (hu : e ≤ u) : (ofList first cues hi he : Execution next starts initial).run u
      = (ofList first cues hi he : Execution next starts initial).run e := by
  induction u, hu using Nat.le_induction with
  | base => rfl
  | succ u hu ih =>
    have hcue : (ofList first cues hi he : Execution next starts initial).cue u = .rest := by
      show cues.getD u .rest = .rest
      rw [List.getD_eq_getElem?_getD, List.getElem?_eq_none (Nat.le_trans hlen hu)]
      rfl
    rw [run_succ, hcue]
    exact ih

end Execution

end IndexCoordinator
