import IndexCoordinator.Proofs.Cycle.Readiness
import IndexCoordinator.Proofs.Cycle.Requests

/-!
# Maintenance

A maintenance task waits for the promise of the build, looks whether the shutdown of the cycle is
requested, and then asks storage for its two pieces of work, one after the other.  A value of the
promise wins over the token of the cycle, which fires only after the shutdown is requested.

* `Maintenance.Moves`          one move of a task;
* `Execution.Completed`        the promise holds a configuration, and all that came before it;
* `Execution.prepared`         what a task has seen where it stands, and so `Execution.maintains`;
* `Execution.Abandoned`        the shutdown was requested while the promise was empty: then no task
                               ever gets to its work;
* `Execution.requested_of_cancelled`   the token of a cycle fires only after the request.
-/

namespace IndexCoordinator

/-- the two pieces of maintenance that storage is asked for -/
def Request.isMaintenance : Request → Bool
  | .deleteStaleIds => true
  | .bringUpToDate => true
  | _ => false

namespace Maintenance

inductive Moves (answer : Answering) (c : Cycle) (m : Maintenance) :
    Progress Cycle Maintenance → Prop where
  | built {cfg : IndexConfiguration} : m.stage = .waiting → c.outcome.slot = some (.ok cfg) →
      Moves answer c m { shared := c, self := { m with stage := .checking } }
  | failed {e : BuildError} : m.stage = .waiting → c.outcome.slot = some (.error e) →
      Moves answer c m { shared := c, self := { m with stage := .ended .buildFailed } }
  | abandon : m.stage = .waiting → c.outcome.slot = none → c.lifecycle.isCancelled = true →
      Moves answer c m { shared := c, self := { m with stage := .confirming .abandoned } }
  | skip : m.stage = .checking → c.isShutdownRequested = true →
      Moves answer c m { shared := c, self := { m with stage := .confirming .skipped } }
  | start : m.stage = .checking → c.isShutdownRequested = false →
      Moves answer c m { shared := c, self := { m with stage := .starting } }
  | delete : m.stage = .starting →
      Moves answer c m
        { shared := c, self := { m with stage := .deleting }, events := [.entered .deleteStaleIds] }
  | deleted : m.stage = .deleting → answer .deleteStaleIds = .returned () →
      Moves answer c m
        { shared := c
          self := { m with stage := .entering }
          events := [.left .deleteStaleIds .completed] }
  | undeleted {p : PanicPayload} : m.stage = .deleting → answer .deleteStaleIds = .panicked p →
      Moves answer c m
        { shared := c
          self := { m with stage := .confirming (.caught p) }
          events := [.left .deleteStaleIds .panicked] }
  | update : m.stage = .entering →
      Moves answer c m
        { shared := c, self := { m with stage := .updating }, events := [.entered .bringUpToDate] }
  | updated : m.stage = .updating → answer .bringUpToDate = .returned () →
      Moves answer c m
        { shared := c
          self := { m with stage := .confirming .passed }
          events := [.left .bringUpToDate .completed] }
  | outdated {p : PanicPayload} : m.stage = .updating → answer .bringUpToDate = .panicked p →
      Moves answer c m
        { shared := c
          self := { m with stage := .confirming (.caught p) }
          events := [.left .bringUpToDate .panicked] }
  | confirm {how : MaintenanceEnd} : m.stage = .confirming how →
      Moves answer c m
        { shared := c.resolveConfirmation m.promise, self := { m with stage := .ended how } }

section
variable {answer : Answering} {c : Cycle} {m : Maintenance} {p : Progress Cycle Maintenance}

theorem moves_of_next (h : (m.next c).under answer = some p) : Moves answer c m p := by
  obtain ⟨promise, stage⟩ := m
  cases stage with
  | waiting =>
    simp only [next, Promise.look] at h
    obtain hs | ⟨e | cfg, hs⟩ := Option.eq_none_or_eq_some c.outcome.slot
    · cases hf : c.lifecycle.isCancelled <;> simp only [hs, hf] at h <;> cases h
      exact .abandon rfl hs hf
    · simp only [hs] at h
      cases h
      exact .failed rfl hs
    · simp only [hs] at h
      cases h
      exact .built rfl hs
  | checking =>
    cases hr : c.isShutdownRequested <;> simp only [next, hr] at h <;> cases h
    · exact .start rfl hr
    · exact .skip rfl hr
  | starting =>
    cases h
    exact .delete rfl
  | deleting =>
    simp only [next, Move.under_awaiting] at h
    cases ha : answer .deleteStaleIds <;> rw [ha] at h <;> cases h
    · exact .deleted rfl ha
    · exact .undeleted rfl ha
  | entering =>
    cases h
    exact .update rfl
  | updating =>
    simp only [next, Move.under_awaiting] at h
    cases ha : answer .bringUpToDate <;> rw [ha] at h <;> cases h
    · exact .updated rfl ha
    · exact .outdated rfl ha
  | confirming how =>
    cases h
    exact .confirm rfl
  | ended => cases h

theorem Moves.asks (h : Moves answer c m p) {r : Request} (hr : .entered r ∈ p.events) :
    (r = .deleteStaleIds ∧ m.stage = .starting) ∨ r = .bringUpToDate ∧ m.stage = .entering := by
  cases h with
  | delete hst =>
    cases List.mem_singleton.mp hr
    exact .inl ⟨rfl, hst⟩
  | update hst =>
    cases List.mem_singleton.mp hr
    exact .inr ⟨rfl, hst⟩
  | deleted | undeleted | updated | outdated => cases List.mem_singleton.mp hr
  | _ => cases hr

end

end Maintenance

theorem Batch.Moves.no_opening {fired : Bool} {answer : Answering} {m m' : InFlight} {b b' : Batch}
    {events : List Event} (h : Batch.Moves fired answer m b m' b' events) {d : IndexDescriptor} :
    .left (.openIndex d) .completed ∉ events := by
  intro hd
  cases h <;> first | cases List.mem_singleton.mp hd | cases hd

namespace Work

variable {fired : Bool} {answer : Answering} {c c' : Cycle} {w : Work} {q : Progress Cycle Work}

theorem Moves.maintenance (h : Moves fired answer c w q) {r : Request} (hr : .entered r ∈ q.events)
    (hm : r.isMaintenance = true) :
    ∃ m p, w = .maintenance m ∧ Maintenance.Moves answer c m p ∧ .entered r ∈ p.events := by
  obtain ⟨m, rfl⟩ : ∃ m, w = .maintenance m := by
    cases h.asks hr with
    | delete m | bringUpToDate m => exact ⟨m, rfl⟩
    | _ => cases hm
  cases h with
  | maintain hp => exact ⟨m, _, rfl, Maintenance.moves_of_next hp, hr⟩

/-- **Only the build of a cycle opens its indexes.** -/
theorem Moves.opening (h : Moves fired answer c w q) {d : IndexDescriptor}
    (hd : .left (.openIndex d) .completed ∈ q.events) :
    ∃ a rest, w = .genesis (.opening a d rest) := by
  cases h with
  | @opened a _ rest =>
    cases (Event.left.inj (List.mem_singleton.mp hd)).1
    exact ⟨a, rest, rfl⟩
  | listed => cases (Event.left.inj (List.mem_singleton.mp hd)).1
  | list | enterIndex => cases List.mem_singleton.mp hd
  | mark hb | reset hb | remark hb =>
    cases hb <;> first | cases List.mem_singleton.mp hd | cases hd
  | @maintain m p hp =>
    have hd : .left (.openIndex d) .completed ∈ p.events := hd
    cases Maintenance.moves_of_next hp <;> first | cases List.mem_singleton.mp hd | cases hd
  | update _ hp => exact absurd hd (Batch.moves_of_next hp).1.no_opening
  | require =>
    obtain ⟨_, _, h⟩ := List.mem_map.mp hd
    cases h
  | _ => cases hd

theorem next_of_deleting (fired : Bool) (c : Cycle) {m : Maintenance} (h : m.stage = .deleting) :
    ∃ k, Work.next fired c (.maintenance m) = .call .deleteStaleIds k := by
  simp only [Work.next, Maintenance.next, h]
  exact ⟨_, rfl⟩

theorem Onward.maintenance {w' : Work} {l : List Work} (h : Onward w w' l) {m' : Maintenance}
    (hw : w' = .maintenance m') : ∃ m, w = .maintenance m := by
  cases h with
  | maintain => exact ⟨_, rfl⟩
  | _ => cases hw

theorem Moves.requested (h : Moves fired answer c w q)
    (hq : q.self = .call (.shuttingDown .cancelling)) : q.shared.isShutdownRequested = true := by
  cases h with
  | @shut s _ _ hn =>
    cases hq
    cases s with
    | claiming =>
      simp only [Shutdown.next] at hn
      split at hn <;> cases hn
      rfl
    | cancelling => cases hn
  | wait _ _ hk =>
    cases hq
    cases hk
  | waited =>
    unfold CycleCall.afterWait at hq
    split at hq
    · cases hq
    · split at hq <;> cases hq
    · cases hq
  | reset hb | remark hb => cases hb <;> cases hq
  | _ => cases hq

theorem Effect.isCancelled (h : w.Effect c c') :
    c'.lifecycle.isCancelled = c.lifecycle.isCancelled ∨ w = .call (.shuttingDown .cancelling) := by
  cases h with
  | shut hw hs =>
    cases hs with
    | cancel => exact .inr hw
    | _ => exact .inl rfl
  | _ => exact .inl rfl

end Work

namespace Execution

section
variable (E : Builds) (t i : Nat)

/-- the promise holds a configuration: it is ready, its build has opened every index of it, and no
opening of the build has ended otherwise -/
structure Completed (cfg : IndexConfiguration) : Prop where
  resolved : (E.cells t).outcome.slot = some (.ok cfg)
  ready : (E.cells t).Ready cfg
  opened : ∃ j g, E.proc? t j = some (.genesis g) ∧
    (∀ d ∈ cfg.registry.descriptors, E.Answered t j (.openIndex d) (.returned (.ok ()))) ∧
    ∀ d a, E.Answered t j (.openIndex d) a → a = .returned (.ok ())

/-- the promise held a configuration once, when the shutdown was not requested -/
def WasOpen : Prop :=
  ∃ u cfg, u < t ∧ (E.cells u).outcome.slot = some (.ok cfg) ∧
    (E.cells u).isShutdownRequested = false

/-- the shutdown is requested, and the promise is empty -/
def Abandoned : Prop :=
  (E.cells t).isShutdownRequested = true ∧ (E.cells t).outcome.slot = none

/-- a process asks storage for maintenance after the build has completed, and to bring the indexes
up to date after it has had the stale ids deleted -/
structure Maintains (r : Request) : Prop where
  completed : ∃ cfg, E.Completed t cfg
  deleted : r = .bringUpToDate → E.Answered t i .deleteStaleIds (.returned ())

/-- what a maintenance task has seen where it stands -/
def Prepared : MaintenanceStage → Prop
  | .checking => ∃ cfg, (E.cells t).outcome.slot = some (.ok cfg)
  | .starting => E.WasOpen t
  | .deleting => E.WasOpen t
  | .entering => E.WasOpen t ∧ E.Answered t i .deleteStaleIds (.returned ())
  | .updating => E.WasOpen t ∧ E.Answered t i .deleteStaleIds (.returned ())
  | _ => True

end

variable {E : Builds} {t u i : Nat}

/-! ### the token of the cycle -/

theorem requested_of_cancelling (h : E.proc? t i = some (.call (.shuttingDown .cancelling))) :
    (E.cells t).isShutdownRequested = true := by
  induction t with
  | zero => cases h
  | succ t ih =>
    obtain h' | ⟨w, fired, answer, q, hm, hq⟩ | ⟨_, k, hk, hw⟩ |
      ⟨j, w, fired, answer, q, hm, hx, _⟩ := proc_of_succ h
    · exact (cells_keep (Nat.le_succ t)).shutdown (ih h')
    · rw [hm.cells_succ]
      exact hm.work.requested hq
    · cases hw
      cases hk
    · obtain hx | ⟨n, hx⟩ := (Work.of_next hm.leads).2.spawned _ hx <;> cases hx

/-- **The token of a cycle fires only after its shutdown is requested.** -/
theorem requested_of_cancelled (h : (E.cells t).lifecycle.isCancelled = true) :
    (E.cells t).isShutdownRequested = true := by
  induction t with
  | zero =>
    obtain ⟨settings, generation, hcells⟩ := cells_zero (E := E)
    rw [hcells] at h
    cases h
  | succ t ih =>
    have hkeep := (cells_keep (E := E) (Nat.le_succ t)).shutdown
    obtain he | ⟨i, w, fired, answer, q, hm⟩ := cells_succ (E := E) t
    · exact hkeep (ih (he ▸ h))
    · obtain he | rfl := (Work.of_next hm.leads).1.isCancelled
      · rw [← hm.cells_succ, h] at he
        exact hkeep (ih he.symm)
      · exact hkeep (requested_of_cancelling hm.proc)

/-! ### the build -/

theorem completed {cfg : IndexConfiguration} (h : (E.cells t).outcome.slot = some (.ok cfg)) :
    E.Completed t cfg := by
  obtain ⟨j, g, hj, hg⟩ := exists_resolved h
  have hresult : ∃ o, (E.cells t).outcome.slot = some o ∧ E.Result t j o := by
    have hstory := story hj
    cases g with
    | confirming | ended => exact hstory
    | _ => cases hg
  obtain ⟨o, ho, hr⟩ := hresult
  cases h.symm.trans ho
  cases hr with
  | assembled ha =>
    refine ⟨h, ready_of_slot h, j, g, hj, ha.opened, fun d a ha => ?_⟩
    -- after another answer the build resolves its promise with an error
    obtain ⟨u, g', fired, answer, q, hu, hm, rfl, k, hn⟩ := ha.of_genesis hj
    have hnot {e : BuildError} (hq : q.self = .genesis (.resolving (.error e))) : False := by
      have hself := hm.self_succ
      rw [hq] at hself
      obtain hstill | hslot := resolving_stays hself hu
      · cases hj.symm.trans hstill
        cases hg
      · cases h.symm.trans hslot
    obtain ⟨hreq, _⟩ | ⟨a', d', rest, hreq, rfl⟩ | ⟨_, _, hreq, _⟩ := calls_of_genesis hn
    · cases hreq
    · cases hreq
      have hq := hm.leads
      simp only [Work.next, Genesis.next, Move.under_map, Move.under_awaiting] at hq
      cases hans : answer (.openIndex d) with
      | returned r =>
        cases r with
        | ok => rfl
        | error e =>
          rw [hans] at hq
          cases hq
          exact (hnot rfl).elim
      | panicked p =>
        rw [hans] at hq
        cases hq
        exact (hnot rfl).elim
    · cases hreq

/-! ### a task -/

theorem WasOpen.mono (h : E.WasOpen t) (htu : t ≤ u) : E.WasOpen u := by
  obtain ⟨v, cfg, hv, h⟩ := h
  exact ⟨v, cfg, Nat.lt_of_lt_of_le hv htu, h⟩

theorem WasOpen.completed (h : E.WasOpen t) : ∃ cfg, E.Completed t cfg := by
  obtain ⟨u, cfg, hut, hslot, _⟩ := h
  exact ⟨cfg, Execution.completed ((cells_keep (Nat.le_of_lt hut)).outcome _ hslot)⟩

theorem Prepared.mono {s : MaintenanceStage} (h : E.Prepared t i s) (htu : t ≤ u) :
    E.Prepared u i s := by
  cases s with
  | checking =>
    obtain ⟨cfg, hslot⟩ := h
    exact ⟨cfg, (cells_keep htu).outcome _ hslot⟩
  | starting | deleting => exact WasOpen.mono h htu
  | entering | updating => exact ⟨WasOpen.mono h.1 htu, h.2.mono htu⟩
  | _ => trivial

theorem Prepared.step {m m' : Maintenance} {fired : Bool} {answer : Answering}
    {q : Progress Cycle Work} (h : E.Prepared t i m.stage)
    (hm : E.Moves t i (.maintenance m) fired answer q) (hq : q.self = .maintenance m') :
    E.Prepared (t + 1) i m'.stage := by
  have hle := Nat.le_succ t
  cases hm.work with
  | @maintain _ p hp =>
    obtain rfl : p.self = m' := Work.maintenance.inj hq
    cases Maintenance.moves_of_next hp with
    | built _ hslot => exact ⟨_, (cells_keep hle).outcome _ hslot⟩
    | start hst ho =>
      rw [hst] at h
      obtain ⟨cfg, hslot⟩ := h
      exact ⟨t, cfg, Nat.lt_succ_self t, hslot, ho⟩
    | delete hst =>
      rw [hst] at h
      exact WasOpen.mono h hle
    | deleted hst ha =>
      rw [hst] at h
      obtain ⟨k, hn⟩ := Work.next_of_deleting fired (E.cells t) hst
      have hanswered := hm.answered hn
      rw [ha] at hanswered
      exact ⟨WasOpen.mono h hle, hanswered⟩
    | update hst =>
      rw [hst] at h
      exact ⟨WasOpen.mono h.1 hle, h.2.mono hle⟩
    | _ => trivial

theorem prepared {m : Maintenance} (h : E.proc? t i = some (.maintenance m)) :
    E.Prepared t i m.stage := by
  induction t generalizing m with
  | zero => cases h
  | succ t ih =>
    obtain h' | ⟨w, fired, answer, q, hm, hq⟩ | ⟨_, k, _, hw⟩ |
      ⟨j, w, fired, answer, q, hm, hx, _⟩ := proc_of_succ h
    · exact (ih h').mono (Nat.le_succ t)
    · obtain ⟨m₀, rfl⟩ := (Work.of_next hm.leads).2.maintenance hq
      exact (ih hm.proc).step hm hq
    · cases hw
    · obtain hx | ⟨n, hx⟩ := (Work.of_next hm.leads).2.spawned _ hx <;> cases hx
      trivial

/-- **Maintenance follows the build,** and its two pieces follow each other. -/
theorem maintains {m : Maintenance} (hm : E.proc? t i = some (.maintenance m))
    {answer : Answering} {p : Progress Cycle Maintenance}
    (hp : Maintenance.Moves answer (E.cells t) m p) {r : Request} (hr : .entered r ∈ p.events) :
    E.Maintains t i r := by
  have hprepared := prepared hm
  obtain ⟨rfl, hst⟩ | ⟨rfl, hst⟩ := hp.asks hr <;> rw [hst] at hprepared
  · exact ⟨WasOpen.completed hprepared, nofun⟩
  · exact ⟨WasOpen.completed hprepared.1, fun _ => hprepared.2⟩

/-! ### requests that come too late -/

/-- the promise of an abandoned cycle never holds a configuration while it is open -/
theorem Abandoned.not_open (h : E.Abandoned t) {o : BuildOutcome}
    (hslot : (E.cells u).outcome.slot = some o) : (E.cells u).isShutdownRequested = true := by
  obtain hut | htu := Nat.le_total u t
  · cases h.2.symm.trans ((cells_keep hut).outcome o hslot)
  · exact (cells_keep htu).shutdown h.1

theorem Abandoned.not_wasOpen (h : E.Abandoned t) : ¬ E.WasOpen u := by
  rintro ⟨v, cfg, _, hslot, ho⟩
  cases ho.symm.trans (h.not_open hslot)

/-- **No task of an abandoned cycle gets to its work.** -/
theorem Abandoned.idle (h : E.Abandoned t) {m : Maintenance}
    (hm : E.proc? u i = some (.maintenance m)) {answer : Answering}
    {p : Progress Cycle Maintenance} (hp : Maintenance.Moves answer (E.cells u) m p) (r : Request) :
    .entered r ∉ p.events := by
  intro hr
  have hprepared := prepared hm
  obtain ⟨_, hst⟩ | ⟨_, hst⟩ := hp.asks hr <;> rw [hst] at hprepared
  · exact h.not_wasOpen hprepared
  · exact h.not_wasOpen hprepared.1

end Execution

end IndexCoordinator
