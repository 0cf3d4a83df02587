import IndexCoordinator.Proofs.Cycle.Builder

/-!
# Callers of a cycle

A call comes in once, goes on with its own operation, and has its reply in the end, which stays.

* `Execution.Avoids`              no caller asks for an operation;
* `Execution.Enters.exists_move`  the move with which a call came to its reply;
* `CycleCall.Waits`, `Execution.Replied`   callers that wait for the configuration, and their
                                  replies;
* `Execution.Replied.exists_stop` what a waiting caller saw last.
-/

namespace IndexCoordinator

namespace Work

variable {w w' : Work} {l : List Work}

theorem Onward.reply (h : Onward w w' l) {r : Reply} (hw : w' = .ended r) :
    ∃ k, w = .call k := by
  cases h with
  | stop | lost | submitted | ensured => exact ⟨_, rfl⟩
  | _ => cases hw

theorem Onward.of_call {k : CycleCall} (h : Onward (.call k) w' l) :
    (∃ k', w' = .call k' ∧ k'.operation = k.operation) ∨ ∃ r, w' = .ended r := by
  cases h with
  | go _ hk => exact .inl ⟨_, rfl, hk⟩
  | won | advanced => exact .inl ⟨_, rfl, rfl⟩
  | stop | lost | submitted | ensured => exact .inr ⟨_, rfl⟩

end Work

inductive CycleCall.Waits : CycleCall → Prop where
  | configuration : Waits (.awaitingConfiguration .reading)
  | poll : Waits (.pollingConfiguration .reading)
  | initialized : Waits (.awaitingInitialized .reading)

/-- a wait for the configuration that has succeeded -/
def Reply.IsOk : Reply → Prop
  | .configuration _ => True
  | .done => True
  | _ => False

def Reply.isConfiguration : Reply → Bool
  | .configuration _ => true
  | _ => false

def Reply.isFailure (e : IndexError) : Reply → Bool
  | .failed e' => e' == e
  | _ => false

/-- a reply passes on what a caller has found out about the configuration -/
def Reply.PassesOn (r : Reply) (result : ConfigurationResult) : Prop :=
  r = CycleCall.awaited result ∨ r = CycleCall.waited (result.map fun _ => ())

/-- whether an operation waits for the configuration and for nothing else -/
def Operation.isWait : Operation → Bool
  | .awaitConfiguration => true
  | .pollConfiguration => true
  | .awaitInitialized => true
  | _ => false

theorem CycleCall.Waits.isWait {k : CycleCall} (h : k.Waits) : k.operation.isWait = true := by
  cases h <;> rfl

theorem CycleCall.afterWait_eq {k : CycleCall} (h : k.operation.isWait = true)
    (result : ConfigurationResult) :
    ∃ r : Reply, k.afterWait result = .ended r ∧ r.PassesOn result := by
  cases k with
  | awaitingConfiguration | pollingConfiguration => exact ⟨_, rfl, .inl rfl⟩
  | awaitingInitialized => exact ⟨_, rfl, .inr rfl⟩
  | _ => cases h

/-- a call that waits for the configuration moves as a waiting caller does -/
theorem Work.Moves.of_wait {fired : Bool} {answer : Answering} {c : Cycle} {k : CycleCall}
    {q : Progress Cycle Work} (h : Work.Moves fired answer c (.call k) q)
    (hk : k.operation.isWait = true) :
    q.spawned = [] ∧ q.events = [] ∧ ∃ p, k.wait? = some p ∧
      ((∃ k' p', q.self = .call k' ∧ k'.wait? = some p' ∧ k'.operation = k.operation ∧
          Poll.Moves fired c p q.shared (.go p')) ∨
        ∃ r result, q.self = .ended r ∧ r.PassesOn result ∧
          Poll.Moves fired c p q.shared (.stop result)) := by
  cases h with
  | wait hw hp hw' ho => exact ⟨rfl, rfl, _, hw, .inl ⟨_, _, rfl, hw', ho, hp⟩⟩
  | waited hw hp =>
    obtain ⟨r, hr, hpass⟩ := CycleCall.afterWait_eq hk _
    exact ⟨rfl, rfl, _, hw, .inr ⟨r, _, hr, hpass, hp⟩⟩
  | reject ho => obtain ho | ho := ho <;> rw [ho] at hk <;> cases hk
  | _ => cases hk

namespace Execution

section
variable (E : Builds)

/-- no caller asks for an operation -/
def Avoids (o : Operation) : Prop := ∀ t i k, E.Enters t i (.call k) → k.operation ≠ o

/-- a caller that came in to wait for the configuration has its reply -/
def Replied (t i : Nat) (r : Reply) : Prop :=
  ∃ u k, k.Waits ∧ E.Enters u i (.call k) ∧ E.proc? t i = some (.ended r)

end

variable {E : Builds} {t u i : Nat}

theorem Moves.work {w : Work} {fired : Bool} {answer : Answering} {q : Progress Cycle Work}
    (h : E.Moves t i w fired answer q) : Work.Moves fired answer (E.cells t) w q :=
  Work.moves_of_next h.leads

theorem exists_enters {k : CycleCall} (h : E.proc? t i = some (.call k)) :
    ∃ u k', u < t ∧ E.Enters u i (.call k') ∧ k'.Fresh ∧ k.operation = k'.operation := by
  induction t generalizing k with
  | zero => cases h
  | succ t ih =>
    obtain h' | ⟨w, fired, answer, q, hm, hq⟩ | ⟨he, k', hk, hw⟩ |
      ⟨j, w, fired, answer, q, hm, hx, _⟩ := proc_of_succ h
    · obtain ⟨u, k', hu, he, hk, ho⟩ := ih h'
      exact ⟨u, k', Nat.lt_succ_of_lt hu, he, hk, ho⟩
    · obtain ⟨k₁, rfl, ho₁⟩ := (Work.of_next hm.leads).2.operation hq
      obtain ⟨u, k', hu, he, hk, ho⟩ := ih hm.proc
      exact ⟨u, k', Nat.lt_succ_of_lt hu, he, hk, ho₁.trans ho⟩
    · cases hw
      exact ⟨t, k, Nat.lt_succ_self t, he, hk, rfl⟩
    · obtain hx | ⟨n, hx⟩ := (Work.of_next hm.leads).2.spawned _ hx <;> cases hx

theorem Avoids.operation {o : Operation} (h : E.Avoids o) {k : CycleCall}
    (hk : E.proc? t i = some (.call k)) : k.operation ≠ o := by
  obtain ⟨u, k', _, he, _, ho⟩ := exists_enters hk
  exact ho ▸ h u i k' he

theorem Enters.call_or_ended {k : CycleCall} (h : E.Enters t i (.call k)) (htu : t < u) :
    (∃ k', E.proc? u i = some (.call k') ∧ k'.operation = k.operation) ∨
      ∃ r, E.proc? u i = some (.ended r) := by
  induction u, htu using Nat.le_induction with
  | base => exact .inl ⟨k, h.proc_succ, rfl⟩
  | succ u _ ih =>
    obtain ⟨k', hk', ho⟩ | ⟨r, hr⟩ := ih
    · obtain h' | ⟨fired, answer, q, hm⟩ := Execution.proc_succ hk'
      · exact .inl ⟨k', h', ho⟩
      · obtain ⟨k'', hq, ho'⟩ | ⟨r, hq⟩ := (Work.of_next hm.leads).2.of_call
        · exact .inl ⟨k'', hq ▸ hm.self_succ, ho'.trans ho⟩
        · exact .inr ⟨r, hq ▸ hm.self_succ⟩
    · obtain h' | ⟨fired, answer, q, hm⟩ := Execution.proc_succ hr
      · exact .inr ⟨r, h'⟩
      · cases hm.leads

theorem reply_stays {r : Reply} (h : E.proc? t i = some (.ended r)) (htu : t ≤ u) :
    E.proc? u i = some (.ended r) := by
  induction u, htu using Nat.le_induction with
  | base => exact h
  | succ u _ ih =>
    obtain h' | ⟨fired, answer, q, hm⟩ := Execution.proc_succ ih
    · exact h'
    · cases hm.leads

theorem reply_unique {r r' : Reply} (h : E.proc? t i = some (.ended r))
    (h' : E.proc? u i = some (.ended r')) : r = r' := by
  have hmax := reply_stays h (Nat.le_max_left t u)
  have hmax' := reply_stays h' (Nat.le_max_right t u)
  cases hmax.symm.trans hmax'
  rfl

/-- **How a call came to its reply.** -/
theorem Enters.exists_move {k : CycleCall} (h : E.Enters t i (.call k)) {r : Reply}
    (hr : E.proc? u i = some (.ended r)) :
    ∃ v k' fired answer q, t < v ∧ v < u ∧ E.Moves v i (.call k') fired answer q ∧
      q.self = .ended r ∧ k'.operation = k.operation := by
  induction u with
  | zero => cases hr
  | succ u ih =>
    obtain h' | ⟨w, fired, answer, q, hm, hq⟩ | ⟨_, k', _, hw⟩ |
      ⟨j, w, fired, answer, q, hm, hx, _⟩ := proc_of_succ hr
    · obtain ⟨v, k', fired, answer, q, htv, hvu, hm⟩ := ih h'
      exact ⟨v, k', fired, answer, q, htv, Nat.lt_succ_of_lt hvu, hm⟩
    · obtain ⟨k', rfl⟩ := (Work.of_next hm.leads).2.reply hq
      obtain ⟨v, k'', _, he, _, ho⟩ := exists_enters hm.proc
      obtain ⟨_, hk⟩ := h.unique he
      cases hk
      exact ⟨u, k', fired, answer, q, h.lt_of_proc hm.proc, Nat.lt_succ_self u, hm, hq, ho⟩
    · cases hw
    · obtain hx | ⟨n, hx⟩ := (Work.of_next hm.leads).2.spawned _ hx <;> cases hx

/-- **What a waiting caller saw last.** -/
theorem Replied.exists_stop {r : Reply} (h : E.Replied t i r) :
    ∃ v k fired answer q p result, v < t ∧ E.Moves v i (.call k) fired answer q ∧
      q.self = .ended r ∧ k.wait? = some p ∧ r.PassesOn result ∧
      Poll.Moves fired (E.cells v) p (E.cells (v + 1)) (.stop result) := by
  obtain ⟨u, k₀, hwait, he, hr⟩ := h
  obtain ⟨v, k, fired, answer, q, _, hv, hm, hq, ho⟩ := he.exists_move hr
  obtain ⟨_, _, p, hp, ⟨k', p', hq', _⟩ | ⟨r', result, hq', hpass, hstop⟩⟩ :=
    hm.work.of_wait (ho ▸ hwait.isWait)
  · cases hq.symm.trans hq'
  · cases hq.symm.trans hq'
    rw [← hm.cells_succ] at hstop
    exact ⟨v, k, fired, answer, q, p, result, hv, hm, hq, hp, hpass, hstop⟩

theorem exists_reply {test : Reply → Bool}
    (h : ((E.proc? t i).bind Work.reply?).any test = true) :
    ∃ r, E.proc? t i = some (.ended r) ∧ test r = true := by
  obtain ⟨r, hr, htest⟩ := (Option.any_eq_true ..).mp h
  obtain ⟨w, hw, hwr⟩ := Option.bind_eq_some_iff.mp hr
  cases w <;> cases hwr
  exact ⟨r, hw, htest⟩

/-! ## scripts -/

theorem new_isInitial :
    ∃ settings generation, Cycle.ofGeneration {} 1 = Cycle.ofGeneration settings generation :=
  ⟨_, _, rfl⟩

/-- the execution of a script: callers come in one after the other, and after each of them
processes move, some with their tokens fired; collaborators always answer alike -/
def ofScript (answer : Answering) (script : List (CycleCall × List (Nat × Bool)))
    (hfresh : script.Forall fun line => line.1.Fresh) : Builds :=
  .ofList (.ofGeneration {} 1)
    (script.flatMap fun line =>
      .enter (.call line.1) :: line.2.map fun move => .move move.1 move.2 answer)
    new_isInitial fun w hw _ => by
      obtain ⟨line, hline, hcue⟩ := List.mem_flatMap.mp hw
      obtain heq | hmove := List.mem_cons.mp hcue
      · cases heq
        exact ⟨line.1, List.forall_iff_forall_mem.mp hfresh line hline, rfl⟩
      · obtain ⟨_, _, heq⟩ := List.mem_map.mp hmove
        cases heq

theorem ofScript_avoids {answer : Answering} {script : List (CycleCall × List (Nat × Bool))}
    {hfresh : script.Forall fun line => line.1.Fresh} {o : Operation}
    (h : ∀ line ∈ script, line.1.operation ≠ o) :
    (ofScript answer script hfresh).Avoids o := by
  intro t i k he
  obtain ⟨line, hline, hcue⟩ := List.mem_flatMap.mp (mem_of_getD he.1 nofun)
  obtain heq | hmove := List.mem_cons.mp hcue
  · cases heq
    exact h line hline
  · obtain ⟨_, _, heq⟩ := List.mem_map.mp hmove
    cases heq

theorem CallEnds.of_script {answer : Answering} {script : List (CycleCall × List (Nat × Bool))}
    {hfresh : script.Forall fun line => line.1.Fresh} {t i : Nat} {r : Request}
    {a : Outcome r.Answer} (h : (ofScript answer script hfresh).CallEnds t i r a) :
    answer r = a := by
  unfold ofScript at h
  obtain ⟨_, _, hmem, ha⟩ := h.exists_cue
  obtain ⟨line, _, hcue⟩ := List.mem_flatMap.mp hmem
  obtain heq | hmove := List.mem_cons.mp hcue
  · cases heq
  · obtain ⟨_, _, heq⟩ := List.mem_map.mp hmove
    cases heq
    exact ha

end Execution

end IndexCoordinator
