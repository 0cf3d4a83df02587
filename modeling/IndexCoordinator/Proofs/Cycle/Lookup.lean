import IndexCoordinator.Proofs.Cycle.Agreement

/-!
# Lookups after a wait

A caller that has waited for the configuration expects that lookups are answered from then on.  The
configuration is put into its cell before the evaluator is made, so a caller that finds it there
may be too early; one that is given it by the promise is not.

* `Operation.isLookup`                lookups of required indexes;
* `Work.Moves.evaluator_none`         a lookup is rejected only without an evaluator;
* `Execution.lookups_after_wait`      lookups after a successful wait are rejected only while the
                                      build is making its evaluator, or has failed to;
* `Execution.not_ready_after_every_wait`   this can happen.
-/

namespace IndexCoordinator

/-- whether an operation looks up required indexes -/
def Operation.isLookup : Operation → Bool
  | .require => true
  | .view => true
  | _ => false

theorem CycleCall.wait?_of_isLookup {k : CycleCall} (h : k.operation.isLookup = true) :
    k.wait? = none := by
  cases k with
  | requiring | viewing => rfl
  | _ => cases h

theorem Work.Moves.evaluator_none {fired : Bool} {answer : Answering} {c : Cycle} {k : CycleCall}
    {q : Progress Cycle Work} (h : Work.Moves fired answer c (.call k) q)
    (hk : k.operation.isLookup = true) (hq : q.self = .ended (.failed .notInitialized)) :
    c.evaluator = none := by
  cases h with
  | reject _ he => exact he
  | @require file e =>
    cases ho : (e.requiredIndexes file).outcome <;> simp only [CycleCall.required, ho] at hq <;>
      cases hq
  | view => cases hq
  | wait hw => cases hw.symm.trans (CycleCall.wait?_of_isLookup hk)
  | waited hw => cases hw.symm.trans (CycleCall.wait?_of_isLookup hk)
  | _ => cases hk

namespace Cycle

variable {c : Cycle} {g : Genesis}

theorem Shows.marking (h : c.Shows g) (hstate : c.state ≠ none) (he : c.evaluator = none) :
    c.outcome.slot = none ∧ ((∃ cfg b, g = .marking cfg b) ∨ ∃ p, g = .unwound p) := by
  have hoffers {cfg : IndexConfiguration} (ho : c.Offers cfg) : False := by
    have hsome := ho.evaluator
    rw [he] at hsome
    cases hsome
  cases g with
  | spawned | listing | publishing | loaded | starting | assembling | opening | caching =>
    exact absurd h.2.state hstate
  | marking cfg b => exact ⟨h.2, .inl ⟨cfg, b, rfl⟩⟩
  | marked => exact (hoffers h.1).elim
  | resolving o =>
    cases o with
    | ok => exact (hoffers h.1).elim
    | error => exact absurd h.state hstate
  | confirming =>
    obtain ⟨_, ho, _⟩ := h
    exact (hoffers ho).elim
  | ended =>
    obtain ⟨_, ho, _⟩ | ⟨hnone, _⟩ := h
    · exact (hoffers ho).elim
    · exact absurd hnone hstate
  | unwound p => exact ⟨h.2, .inr ⟨p, rfl⟩⟩

end Cycle

namespace Execution

variable {E : Builds} {t u i j : Nat} {k : CycleCall}

theorem evaluator_stays (h : (E.cells t).evaluator.isSome = true) (htu : t ≤ u) :
    (E.cells u).evaluator.isSome = true := by
  induction u, htu using Nat.le_induction with
  | base => exact h
  | succ u _ ih =>
    obtain he | ⟨l, w, fired, answer, q, hm⟩ := cells_succ (E := E) u
    · rw [he]
      exact ih
    · rw [hm.cells_succ]
      obtain he | ⟨e, _, he⟩ := (Work.of_next hm.leads).1.evaluator <;> rw [he]
      · exact ih
      · rfl

/-- **Lookups after a wait.**  Let a caller have waited for the configuration with success, and a
lookup come in afterwards, while no caller sets the configuration.  If it is rejected, then it moved
when no evaluator was published and the promise was unresolved, because the build was still making
its evaluator or the registry of file types had panicked on it.  So it is not rejected if the promise
was resolved, or an evaluator published, when the wait ended. -/
theorem lookups_after_wait (hset : E.Avoids .setState) {r : Reply} (h : E.Replied t i r)
    (hr : r.IsOk) (htu : t ≤ u) (he : E.Enters u j (.call k))
    (hk : k.operation.isLookup = true) :
    (∀ v, E.proc? v j = some (.ended (.failed .notInitialized)) →
      ∃ m g, u < m ∧ m < v ∧ E.Stands m g ∧ (E.cells m).evaluator = none ∧
        (E.cells m).outcome.slot = none ∧
        ((∃ cfg b, g = .marking cfg b) ∨
          ∃ p l, g = .unwound p ∧ E.Answered m l .registeredFileTypes (.panicked p))) ∧
    ((E.cells t).outcome.slot.isSome = true ∨ (E.cells t).evaluator.isSome = true →
      ∀ v, E.proc? v j ≠ some (.ended (.failed .notInitialized))) := by
  obtain ⟨cfg, hcfg, _⟩ := h.state hset hr
  have hwindow (v : Nat) (hv : E.proc? v j = some (.ended (.failed .notInitialized))) :
      ∃ m g, u < m ∧ m < v ∧ E.Stands m g ∧ (E.cells m).evaluator = none ∧
        (E.cells m).outcome.slot = none ∧
        ((∃ cfg b, g = .marking cfg b) ∨
          ∃ p l, g = .unwound p ∧ E.Answered m l .registeredFileTypes (.panicked p)) := by
    obtain ⟨m, k', fired, answer, q, hum, hmv, hm, hq, ho⟩ := he.exists_move hv
    have hnone := hm.work.evaluator_none (by rw [ho]; exact hk) hq
    have hstate := state_stays hset hcfg (Nat.le_trans htu (Nat.le_of_lt hum))
    obtain ⟨g, hg⟩ := exists_stands (E := E) m
    obtain ⟨hslot, hg'⟩ := (hg.shows hset).marking (by rw [hstate]; nofun) hnone
    refine ⟨m, g, hum, hmv, hg, hnone, hslot, ?_⟩
    obtain hmarking | ⟨p, rfl⟩ := hg'
    · exact .inl hmarking
    · cases hg with
      | @build l _ hl =>
        have hstory : E.Answered m l .registeredFileTypes (.panicked p) := story hl
        exact .inr ⟨p, l, rfl, hstory⟩
  refine ⟨hwindow, fun hready v hv => ?_⟩
  obtain ⟨m, _, hum, _, _, hnone, hslot, _⟩ := hwindow v hv
  have htm : t ≤ m := Nat.le_trans htu (Nat.le_of_lt hum)
  obtain hsome | hsome := hready
  · obtain ⟨o, ho⟩ := Option.isSome_iff_exists.mp hsome
    cases hslot.symm.trans ((cells_keep htm).outcome o ho)
  · have hstays := evaluator_stays hsome htm
    rw [hnone] at hstays
    cases hstays

/-- a caller finds the configuration in its cell while the build is making the evaluator, and another
looks up a type; once the build is over the same happens again -/
def early : Builds :=
  .ofScript (.granting [])
    [(.submitting .claiming, ([0, 0, 0] ++ List.replicate 7 1).map (·, false)),
      (.awaitingInitialized .reading, [(2, false)]), (.viewing ⟨"text"⟩, [(3, false)]),
      (.awaitingConfiguration .reading, (List.replicate 5 1 ++ [4]).map (·, false)),
      (.viewing ⟨"text"⟩, [(5, false)])]
    ⟨.submit, .awaitInitialized, .view _, .awaitConfiguration, .view _⟩

/-- the first lookup is rejected while the build is making its evaluator, the second never -/
theorem lookups_after_wait_early :
    early.Avoids .setState ∧
    (early.Replied 13 2 .done ∧ early.Enters 13 3 (.call (.viewing ⟨"text"⟩)) ∧
      ∃ m g, 13 < m ∧ m < 15 ∧ early.Stands m g ∧ (early.cells m).evaluator = none ∧
        (early.cells m).outcome.slot = none) ∧
    (∃ cfg, early.Replied 22 4 (.configuration cfg)) ∧
    early.Enters 22 5 (.call (.viewing ⟨"text"⟩)) ∧
    ∀ v, early.proc? v 5 ≠ some (.ended (.failed .notInitialized)) := by
  have hset : early.Avoids .setState := ofScript_avoids (by decide)
  have hdone : early.Replied 13 2 .done := ⟨11, _, .initialized, ⟨rfl, rfl⟩, rfl⟩
  have hfirst : early.Enters 13 3 (.call (.viewing ⟨"text"⟩)) := ⟨rfl, rfl⟩
  have hsecond : early.Enters 22 5 (.call (.viewing ⟨"text"⟩)) := ⟨rfl, rfl⟩
  have hcfg : ((early.proc? 22 4).bind Work.reply?).any Reply.isConfiguration = true := by
    decide +kernel
  have hslot : (early.cells 22).outcome.slot.isSome = true := by decide +kernel
  obtain ⟨r, hr, hcfg⟩ := exists_reply hcfg
  cases r with
  | configuration cfg =>
    have hgiven : early.Replied 22 4 (.configuration cfg) := ⟨15, _, .configuration, ⟨rfl, rfl⟩, hr⟩
    obtain ⟨m, g, hm, hm', hg, hnone, hopen, _⟩ :=
      (lookups_after_wait hset hdone trivial (Nat.le_refl 13) hfirst rfl).1 15 rfl
    exact ⟨hset, ⟨hdone, hfirst, m, g, hm, hm', hg, hnone, hopen⟩, ⟨cfg, hgiven⟩, hsecond,
      (lookups_after_wait hset hgiven trivial (Nat.le_refl 22) hsecond rfl).2 (.inl hslot)⟩
  | _ => cases hcfg

/-- the registry of file types panics on the build; a caller finds the configuration in its cell
nevertheless, and another looks up a file -/
def deserted : Builds :=
  .ofScript withoutFileTypes
    [(.submitting .claiming, ([0, 0, 0] ++ List.replicate 9 1).map (·, false)),
      (.awaitingInitialized .reading, [(2, false)]),
      (.requiring (.regular "a.txt" ⟨"text"⟩ 3), [(3, false)])]
    ⟨.submit, .awaitInitialized, .require _⟩

/-- a successful wait alone does not make lookups ready -/
theorem not_ready_after_every_wait :
    ¬ ∀ (E : Builds), E.Avoids .setState → ∀ t i r, E.Replied t i r → r.IsOk →
      ∀ u j k, t ≤ u → E.Enters u j (.call k) → k.operation.isLookup = true →
        ∀ v, E.proc? v j ≠ some (.ended (.failed .notInitialized)) := by
  intro h
  have hset : deserted.Avoids .setState := ofScript_avoids (by decide)
  have hdone : deserted.Replied 15 2 .done := ⟨13, _, .initialized, ⟨rfl, rfl⟩, rfl⟩
  exact h deserted hset 15 2 .done hdone trivial 15 3 _ (Nat.le_refl 15) ⟨rfl, rfl⟩ rfl 17 rfl

end Execution

end IndexCoordinator
