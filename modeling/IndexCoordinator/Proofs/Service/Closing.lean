import IndexCoordinator.Proofs.Cycle.Requests
import IndexCoordinator.Proofs.Service.Refusal

/-!
# Closing the service

Of all the callers that shut the service down one claims the flag, clears the slots and disposes of
storage, which may panic.  The others wait for the lock and find the flag claimed.

* `Job.balanced_disposals`       a claim of the flag is followed by one disposal;
* `Execution.Claims`, `Execution.Disposes`   who claims the flag, and who disposes of storage;
* `Execution.Past`, `Execution.past`   what a shutdown has done where it stands;
* `Execution.HasShutDown.countP_disposals`   storage was disposed of when any shutdown has ended;
* `Execution.closing_once`       all of it together, with the requests that come in late.
-/

namespace IndexCoordinator

def Event.isDisposal : Event → Bool
  | .entered .dispose => true
  | _ => false

def Coordinator.disposalsLeft (w : Coordinator) : Nat := if w.service.shutDown then 0 else 1

namespace Closing

def hasClaimed : Closing → Bool
  | .acquiring => false
  | .claiming => false
  | .refusing => false
  | _ => true

def hasEntered : Closing → Bool
  | .disposing => true
  | .releasing => true
  | .unwinding _ => true
  | _ => false

end Closing

namespace Job

def disposes : Job → Bool
  | .closing s => s.hasClaimed && !s.hasEntered
  | _ => false

theorem inside_of_disposes {j : Job} (h : j.disposes = true) : j.inside = true := by
  cases j with
  | closing s => cases s <;> first | rfl | cases h
  | _ => cases h

section
variable {fired : Bool} {answer : Answering} {w : Coordinator} {j : Job}
  {q : Progress Coordinator Job}

/-- only a shutdown that has shut all cycles down asks storage to dispose of itself -/
theorem Moves.entering_of_disposal (h : Moves fired answer w j q)
    (hq : .entered .dispose ∈ q.events) : j = .closing .entering := by
  cases h with
  | work _ hk => cases (Work.moves_of_next hk).asks hq
  | enter => rfl
  | disposed | panic => cases List.mem_singleton.mp hq
  | _ => cases hq

theorem countP_disposals_eq_zero {events : List Event} (h : .entered .dispose ∉ events) :
    events.countP Event.isDisposal = 0 := by
  refine List.countP_eq_zero.mpr fun e he hdispose => ?_
  unfold Event.isDisposal at hdispose
  split at hdispose
  · exact h he
  · cases hdispose

theorem balanced_disposals :
    Run.Balanced next Event.isDisposal disposes Coordinator.disposalsLeft := by
  intro fired answer w j q hnext
  have hmoves := moves_of_next hnext
  by_cases hj : j = .closing .entering
  · subst hj
    cases hnext
    rfl
  rw [countP_disposals_eq_zero fun he => hj (hmoves.entering_of_disposal he), Nat.zero_add]
  have hspawned : q.spawned.countP disposes = 0 := by
    refine List.countP_eq_zero.mpr fun x hx hd => ?_
    obtain ⟨i, g, rfl⟩ | ⟨i, m, rfl⟩ | ⟨next, rfl⟩ := hmoves.spawned x hx <;> cases hd
  rw [List.countP_cons, hspawned]
  cases hmoves with
  | acquire _ h =>
    unfold afterLock at h
    split at h <;> cases h <;> rfl
  | release h =>
    unfold afterUnlock at h
    split at h <;> cases h <;> rfl
  | supersede h | superseded h | retire h | retired h | abandon h | dropped h | stop h
  | stopped h =>
    rw [Coordinator.disposalsLeft, Coordinator.disposalsLeft, h.aside.service]
    rfl
  | close h =>
    -- the right to dispose goes from the flag to the job
    simp [Coordinator.disposalsLeft, setService, h, disposes, Closing.hasClaimed,
      Closing.hasEntered]
  | enter => exact absurd rfl hj
  | _ => rfl

theorem Moves.closing (h : Moves fired answer w j q) {s : Closing} (hq : q.self = .closing s) :
    ∃ s', j = .closing s' ∧
      (s.hasClaimed = true → s'.hasClaimed = true ∨ s' = .claiming ∧ s = .taking) ∧
      (s.hasEntered = true → s'.hasEntered = true ∨ s' = .entering) ∧
      (s = .refusing → s' = .claiming ∧ w.service.shutDown = true) := by
  cases h with
  | acquire _ h =>
    unfold afterLock at h
    split at h <;> cases h
    · cases hq
    · cases hq
    · obtain rfl := Job.closing.inj hq
      exact ⟨_, rfl, nofun, nofun, nofun⟩
  | release h =>
    unfold afterUnlock at h
    split at h <;> cases h <;> cases hq
  | yield h =>
    cases hq
    exact ⟨_, rfl, nofun, nofun, fun _ => ⟨rfl, h⟩⟩
  | close =>
    cases hq
    exact ⟨_, rfl, fun _ => .inr ⟨rfl, rfl⟩, nofun, nofun⟩
  | drop | clear | abandon | dropped | load | stop | stopped =>
    cases hq
    exact ⟨_, rfl, fun _ => .inl rfl, nofun, nofun⟩
  | enter =>
    cases hq
    exact ⟨_, rfl, fun _ => .inl rfl, fun _ => .inr rfl, nofun⟩
  | disposed | panic =>
    cases hq
    exact ⟨_, rfl, fun _ => .inl rfl, fun _ => .inl rfl, nofun⟩
  | _ => cases hq

theorem Moves.of_closing {s : Closing} (h : Moves fired answer w (.closing s) q) :
    (∃ s', q.self = .closing s') ∨
      ∃ r, q.self = .ended r ∧ afterUnlock (.closing s) = some (.ended r) := by
  cases h with
  | acquire _ h =>
    cases s <;> cases h
    exact .inl ⟨_, rfl⟩
  | release h => cases s <;> cases h <;> exact .inr ⟨_, rfl, rfl⟩
  | _ => exact .inl ⟨_, rfl⟩

end

end Job

namespace Execution

section
variable (E : Services) (t i : Nat)

/-- a shutdown of the service claims the flag -/
def Claims : Prop :=
  ∃ fired answer q, E.Moves t i (.closing .claiming) fired answer q ∧ q.self = .closing .taking

/-- a process asks storage to dispose of itself -/
def Disposes : Prop :=
  ∃ j fired answer q, E.Moves t i j fired answer q ∧ .entered .dispose ∈ q.events

/-- what a shutdown has done before a moment at which it stands at a position -/
structure Past (s : Closing) : Prop where
  claimed : s.hasClaimed = true → ∃ c, c < t ∧ E.Claims c i
  disposed : s.hasEntered = true → ∃ m, m < t ∧ E.Disposes m i
  yielded : s = .refusing → ∃ v, v < t ∧ E.proc? v i = some (.closing .claiming) ∧
    (E.cells v).service.shutDown = true

/-- a call that shuts the service down has ended -/
def HasShutDown (r : Reply) : Prop :=
  ∃ u, E.Enters u i (.closing .acquiring) ∧ E.proc? t i = some (.ended r)

end

variable {E : Services} {t u i k : Nat} {s : Closing} {r : Reply}

/-- what happens at one moment at most is done by one process -/
theorem eq_of_le {P : Nat → Nat → Prop}
    (hmove : ∀ t i, P t i → ∃ fired answer, E.cue t = .move i fired answer)
    (hle : ∀ t u i k, P t i → P u k → u ≤ t) (h : P t i) (h' : P u k) : t = u ∧ i = k := by
  obtain rfl := Nat.le_antisymm (hle u t k i h' h) (hle t u i k h h')
  obtain ⟨fired, answer, hcue⟩ := hmove t i h
  obtain ⟨fired', answer', hcue'⟩ := hmove t k h'
  cases hcue.symm.trans hcue'
  exact ⟨rfl, rfl⟩

/-! ### the claim -/

theorem Claims.shutDown (h : E.Claims t i) :
    (E.cells t).service.shutDown = false ∧ (E.cells (t + 1)).service.shutDown = true := by
  obtain ⟨fired, answer, q, hm, hq⟩ := h
  rw [hm.cells_succ]
  cases hm.job with
  | close h => exact ⟨h, rfl⟩
  | acquire _ h => cases h
  | release h => cases h
  | yield => cases hq

theorem Claims.unique (h : E.Claims t i) (h' : E.Claims u k) : t = u ∧ i = k := by
  refine eq_of_le (E := E) (P := E.Claims) (fun t i h => ?_) (fun t u i k h h' => ?_) h h'
  · obtain ⟨fired, answer, q, hm, _⟩ := h
    exact ⟨fired, answer, hm.cue⟩
  · by_contra hlt
    have hkeep := (keeps (Nat.lt_of_not_le hlt)).shutDown h.shutDown.2
    rw [h'.shutDown.1] at hkeep
    cases hkeep

/-! ### what a shutdown has done -/

theorem Past.mono (h : E.Past t i s) (htu : t ≤ u) : E.Past u i s where
  claimed hs := by
    obtain ⟨c, hc, hclaim⟩ := h.claimed hs
    exact ⟨c, Nat.lt_of_lt_of_le hc htu, hclaim⟩
  disposed hs := by
    obtain ⟨m, hm, hdispose⟩ := h.disposed hs
    exact ⟨m, Nat.lt_of_lt_of_le hm htu, hdispose⟩
  yielded hs := by
    obtain ⟨v, hv, hclaiming⟩ := h.yielded hs
    exact ⟨v, Nat.lt_of_lt_of_le hv htu, hclaiming⟩

theorem Past.step {s' : Closing} {fired : Bool} {answer : Answering}
    {q : Progress Coordinator Job} (h : E.Past t i s)
    (hm : E.Moves t i (.closing s) fired answer q) (hq : q.self = .closing s') :
    E.Past (t + 1) i s' := by
  have hlater := h.mono (Nat.le_succ t)
  obtain ⟨_, hj, hclaimed, hentered, hrefused⟩ := hm.job.closing hq
  obtain rfl := Job.closing.inj hj
  refine ⟨fun hs => ?_, fun hs => ?_, fun hs => ?_⟩
  · obtain hs | ⟨rfl, rfl⟩ := hclaimed hs
    · exact hlater.claimed hs
    · exact ⟨t, Nat.lt_succ_self t, fired, answer, q, hm, hq⟩
  · obtain hs | rfl := hentered hs
    · exact hlater.disposed hs
    · refine ⟨t, Nat.lt_succ_self t, _, fired, answer, q, hm, ?_⟩
      cases hm.leads
      exact List.mem_singleton.mpr rfl
  · obtain ⟨rfl, hshut⟩ := hrefused hs
    exact ⟨t, Nat.lt_succ_self t, hm.proc, hshut⟩

theorem past (h : E.proc? t i = some (.closing s)) : E.Past t i s := by
  induction t generalizing s with
  | zero => cases h
  | succ t ih =>
    obtain h' | ⟨j, fired, answer, q, hm, hq⟩ | ⟨_, hj⟩ | ⟨l, j, fired, answer, q, hm, hx, _⟩ :=
      proc_of_succ h
    · exact (ih h').mono (Nat.le_succ t)
    · obtain ⟨s', rfl, _⟩ := hm.job.closing hq
      exact (ih hm.proc).step hm hq
    · obtain hj | hj | hj | ⟨_, _, hj⟩ | ⟨_, _, _, _, hj⟩ := hj <;> cases hj
      exact ⟨nofun, nofun, nofun⟩
    · obtain ⟨_, g, hx⟩ | ⟨_, m, hx⟩ | ⟨next, hx⟩ := hm.job.spawned _ hx <;> cases hx

/-! ### the disposal -/

theorem balance_disposals (t : Nat) :
    (E.run t).trace.countP Event.isDisposal + (E.run t).procs.countP Job.disposes +
      (E.cells t).disposalsLeft = 1 := by
  refine (E.reachable t).balance (fun w hw => ?_) (fun w j hj => ?_) Job.balanced_disposals
  · obtain ⟨settings, rfl⟩ := hw
    rfl
  · obtain rfl | rfl | rfl | ⟨_, _, rfl⟩ | ⟨_, _, _, _, rfl⟩ := hj <;> rfl

theorem countP_disposals_le (t : Nat) : (E.run t).trace.countP Event.isDisposal ≤ 1 := by
  have h := balance_disposals (E := E) t
  omega

theorem countP_disposals_mono (h : t ≤ u) :
    (E.run t).trace.countP Event.isDisposal ≤ (E.run u).trace.countP Event.isDisposal :=
  (trace_mono h).sublist.countP_le

theorem Disposes.countP_succ (h : E.Disposes t i) :
    (E.run t).trace.countP Event.isDisposal < (E.run (t + 1)).trace.countP Event.isDisposal := by
  obtain ⟨j, fired, answer, q, hm, hq⟩ := h
  have hpos : 0 < q.events.countP Event.isDisposal := List.countP_pos_iff.mpr ⟨_, hq, rfl⟩
  rw [hm.run, Run.trace_commit, List.countP_append]
  omega

theorem Disposes.unique (h : E.Disposes t i) (h' : E.Disposes u k) : t = u ∧ i = k := by
  refine eq_of_le (E := E) (P := E.Disposes) (fun t i h => ?_) (fun t u i k h h' => ?_) h h'
  · obtain ⟨j, fired, answer, q, hm, _⟩ := h
    exact ⟨fired, answer, hm.cue⟩
  · by_contra hlt
    have hsucc : t + 1 ≤ u := Nat.lt_of_not_le hlt
    have hmono := countP_disposals_mono (E := E) hsucc
    have hmax := countP_disposals_le (E := E) (u + 1)
    have hone := h.countP_succ
    have htwo := h'.countP_succ
    omega

theorem Disposes.entering (h : E.Disposes t i) : E.proc? t i = some (.closing .entering) := by
  obtain ⟨j, fired, answer, q, hm, hq⟩ := h
  obtain rfl := hm.job.entering_of_disposal hq
  exact hm.proc

theorem Disposes.exists_claim (h : E.Disposes t i) : ∃ c, c < t ∧ E.Claims c i :=
  (past h.entering).claimed rfl

/-- **When storage is disposed of, every cycle is shut down.** -/
theorem Disposes.all_shut (h : E.Disposes t i) :
    (E.cells t).service.pending = none ∧
      ∀ c ∈ (E.cells t).cycles, c.isShutdownRequested = true := by
  obtain ⟨c, hc, hclaim⟩ := h.exists_claim
  have hs := (keeps hc).shutDown hclaim.shutDown.2
  obtain ⟨hretired, hclosed⟩ := (orderly t).of_inside (List.mem_of_getElem? h.entering) rfl
  exact Coordinator.Closed.all_shut hclosed hretired hs

/-! ### the end of a shutdown -/

theorem Enters.closing_or_ended (h : E.Enters u i (.closing .acquiring)) (hut : u < t) :
    (∃ s, E.proc? t i = some (.closing s)) ∨
      ∃ r, E.proc? t i = some (.ended r) ∧ ∃ v s, v < t ∧ E.proc? v i = some (.closing s) ∧
        (Job.closing s).afterUnlock = some (.ended r) := by
  induction t, hut using Nat.le_induction with
  | base => exact .inl ⟨_, h.proc_succ⟩
  | succ t _ ih =>
    obtain ⟨s, hs⟩ | ⟨r, hr, v, s, hv, hs⟩ := ih
    · obtain hs' | ⟨fired, answer, q, hm⟩ := Execution.proc_succ hs
      · exact .inl ⟨s, hs'⟩
      · have hself := hm.self_succ
        obtain ⟨s', hq⟩ | ⟨r, hq, hlast⟩ := hm.job.of_closing <;> rw [hq] at hself
        · exact .inl ⟨s', hself⟩
        · exact .inr ⟨r, hself, t, s, Nat.lt_succ_self t, hs, hlast⟩
    · obtain hr' | ⟨fired, answer, q, hm⟩ := Execution.proc_succ hr
      · exact .inr ⟨r, hr', v, s, Nat.lt_succ_of_lt hv, hs⟩
      · cases hm.leads

theorem HasShutDown.exists_move (h : E.HasShutDown t i r) :
    ∃ v s, v < t ∧ E.proc? v i = some (.closing s) ∧
      (Job.closing s).afterUnlock = some (.ended r) := by
  obtain ⟨u, he, hr⟩ := h
  obtain ⟨s, hs⟩ | ⟨r', hr', hlast⟩ := he.closing_or_ended (he.lt_of_proc hr)
  · cases hr.symm.trans hs
  · cases hr.symm.trans hr'
    exact hlast

/-- who stands under the lock with the flag claimed by another finds storage disposed of -/
theorem countP_disposals_of_claiming (h : E.proc? t i = some (.closing .claiming))
    (hs : (E.cells t).service.shutDown = true) :
    (E.run t).trace.countP Event.isDisposal = 1 := by
  have hbalance := balance_disposals (E := E) t
  have hnone : (E.run t).procs.countP Job.disposes = 0 := by
    refine List.countP_eq_zero.mpr fun j hj hd => ?_
    obtain ⟨rfl, _⟩ := (orderly t).sole hj (List.mem_of_getElem? h) (Job.inside_of_disposes hd) rfl
    cases hd
  rw [hnone, Coordinator.disposalsLeft, if_pos hs] at hbalance
  exact hbalance

/-- **Once any shutdown has ended, storage was disposed of.** -/
theorem HasShutDown.countP_disposals (h : E.HasShutDown t i r) :
    (E.run t).trace.countP Event.isDisposal = 1 := by
  refine Nat.le_antisymm (countP_disposals_le t) ?_
  obtain ⟨v, s, hv, hs, hlast⟩ := h.exists_move
  have hpast := past hs
  have hentered (he : s.hasEntered = true) : 1 ≤ (E.run t).trace.countP Event.isDisposal := by
    obtain ⟨m, hm, hdispose⟩ := hpast.disposed he
    have hsucc := hdispose.countP_succ
    have hmt : m + 1 ≤ t := Nat.lt_trans hm hv
    have hmono := countP_disposals_mono (E := E) hmt
    omega
  cases s with
  | refusing =>
    -- it has found the flag set under the lock, so the one who set it was no longer inside
    obtain ⟨y, hy, hclaiming, hshut⟩ := hpast.yielded rfl
    rw [← countP_disposals_of_claiming hclaiming hshut]
    exact countP_disposals_mono (Nat.le_of_lt (Nat.lt_trans hy hv))
  | releasing | unwinding => exact hentered rfl
  | _ => cases hlast

theorem HasShutDown.exists_disposal (h : E.HasShutDown t i r) : ∃ m k, m < t ∧ E.Disposes m k := by
  have hpos : 0 < (E.run t).trace.countP Event.isDisposal := by rw [h.countP_disposals]; decide
  obtain ⟨e, he, hdispose⟩ := List.countP_pos_iff.mp hpos
  unfold Event.isDisposal at hdispose
  split at hdispose
  · obtain ⟨m, k, j, fired, answer, q, hmt, hm, hq⟩ := exists_move_of_event he
    exact ⟨m, k, hmt, j, fired, answer, q, hm, hq⟩
  · cases hdispose

theorem HasShutDown.exists_claim (h : E.HasShutDown t i r) :
    r = .flag false ∨ ∃ c, E.Claims c i := by
  obtain ⟨v, s, _, hs, hlast⟩ := h.exists_move
  have hclaimed (hcl : s.hasClaimed = true) : ∃ c, E.Claims c i := by
    obtain ⟨c, _, hclaim⟩ := (past hs).claimed hcl
    exact ⟨c, hclaim⟩
  cases s with
  | refusing =>
    cases hlast
    exact .inl rfl
  | releasing | unwinding => exact .inr (hclaimed rfl)
  | _ => cases hlast

/-- **Closing the service once.**  In every execution of a service, with any shutdowns, changes,
promotions, lookups and waits, and any answer of storage to its disposal, a panic included:

* at most one call that shuts the service down is told that it did;
* when any of these calls has ended, one has claimed the flag and then disposed of storage, no other
  ever does either, and every other call is told that it did not shut the service down;
* storage is never disposed of twice;
* when it is, no cycle is pending and every cycle is shut down;
* a request that comes in once the flag is set is refused. -/
theorem closing_once (E : Services) :
    (∀ t u i k, E.HasShutDown t i (.flag true) → E.HasShutDown u k (.flag true) → i = k) ∧
    (∀ t i r, E.HasShutDown t i r → ∃ c m k, c < m ∧ m < t ∧ E.Claims c k ∧ E.Disposes m k ∧
      (∀ c' k', E.Claims c' k' → c' = c ∧ k' = k) ∧
      (∀ m' k', E.Disposes m' k' → m' = m ∧ k' = k) ∧ (i = k ∨ r = .flag false)) ∧
    (∀ t, (E.run t).trace.countP Event.isDisposal ≤ 1) ∧
    (∀ t i, E.Disposes t i → (E.cells t).service.pending = none ∧
      ∀ c ∈ (E.cells t).cycles, c.isShutdownRequested = true) ∧
    ∀ t i j, E.Enters t i j → j.IsRequest → (E.cells t).service.shutDown = true →
      E.Refused t i := by
  refine ⟨fun t u i k h h' => ?_, fun t i r h => ?_, countP_disposals_le,
    fun t i h => h.all_shut, fun t i j h => h.refused⟩
  · obtain hr | ⟨c, hclaim⟩ := h.exists_claim
    · cases hr
    obtain hr | ⟨c', hclaim'⟩ := h'.exists_claim
    · cases hr
    exact (hclaim.unique hclaim').2
  · obtain ⟨m, k, hm, hdispose⟩ := h.exists_disposal
    obtain ⟨c, hc, hclaim⟩ := hdispose.exists_claim
    refine ⟨c, m, k, hc, hm, hclaim, hdispose, fun _ _ h' => h'.unique hclaim,
      fun _ _ h' => h'.unique hdispose, ?_⟩
    obtain hr | ⟨c', hclaim'⟩ := h.exists_claim
    · exact .inr hr
    · exact .inl (hclaim'.unique hclaim).2

/-- storage panics when it is disposed of -/
def withoutStorage : Answering
  | .dispose => .panicked (.text "disk gone")
  | r => Answering.granting [] r

/-- two calls shut the service down, and storage panics on the first; a lookup, a change and a wait
for the pending cycle come in once the flag is set -/
def contested : Services :=
  .ofList (.start {})
    ([.enter (.closing .acquiring), .enter (.closing .acquiring), .move 0 false withoutStorage,
        .move 0 false withoutStorage, .enter (.lookingUp (.findingTask ⟨"words", 2⟩)),
        .enter (.changing .acquiring), .enter (.awaitingPending .looking)] ++
      ([2] ++ List.replicate 7 0 ++ List.replicate 3 1 ++ List.replicate 3 3 ++ [4, 4]).map
        fun i => .move i false withoutStorage)
    start_isInitial (by
      intro p hp s
      obtain hp | hp := List.mem_append.mp hp
      · simp only [List.mem_cons, Cue.enter.injEq, reduceCtorEq, false_or, List.not_mem_nil,
          or_false] at hp
        obtain rfl | rfl | rfl | rfl | rfl := hp
        · exact .inr (.inl rfl)
        · exact .inr (.inl rfl)
        · exact .inr (.inr (.inr (.inl ⟨.findingTask _, trivial, rfl⟩)))
        · exact .inl rfl
        · exact .inr (.inr (.inl rfl))
      · obtain ⟨i, _, hi⟩ := List.mem_map.mp hp
        cases hi)

/-- the first call has the panic, the second is too late, and so are the three requests -/
theorem closing_once_contested :
    contested.HasShutDown 23 0 (.panicked (.text "disk gone")) ∧
    contested.HasShutDown 23 1 (.flag false) ∧
    (∃ m, m < 23 ∧ contested.Disposes m 0 ∧ ∀ m' k, contested.Disposes m' k → m' = m ∧ k = 0) ∧
    (∀ i ∈ [2, 3, 4], contested.proc? 23 i = some (.ended (.failed .shutDown))) ∧
    contested.Refused 4 2 ∧ contested.Refused 5 3 ∧ contested.Refused 6 4 := by
  have hpanic : contested.HasShutDown 23 0 (.panicked (.text "disk gone")) := ⟨0, ⟨rfl, rfl⟩, rfl⟩
  have hlate : contested.HasShutDown 23 1 (.flag false) := ⟨1, ⟨rfl, rfl⟩, rfl⟩
  obtain ⟨_, hclosed, _, _, hrefused⟩ := closing_once contested
  obtain ⟨_, m, k, _, hm, _, hdispose, _, honce, hk⟩ := hclosed 23 0 _ hpanic
  obtain rfl | hk := hk
  · refine ⟨hpanic, hlate, ⟨m, hm, hdispose, honce⟩, ?_, ?_⟩
    · intro i hi
      simp only [List.mem_cons, List.not_mem_nil, or_false] at hi
      obtain rfl | rfl | rfl := hi <;> rfl
    · exact ⟨hrefused 4 2 _ ⟨rfl, rfl⟩ (.inr (.inr ⟨.findingTask _, trivial, rfl⟩)) rfl,
        hrefused 5 3 _ ⟨rfl, rfl⟩ (.inl rfl) rfl,
        hrefused 6 4 _ ⟨rfl, rfl⟩ (.inr (.inl rfl)) rfl⟩
  · cases hk

end Execution

end IndexCoordinator
