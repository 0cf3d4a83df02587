import IndexCoordinator.Proofs.Cycle.Publication
import IndexCoordinator.Proofs.Cycle.Requests
import IndexCoordinator.Proofs.Silence

/-!
# Waiting callers agree

Callers that wait for the configuration of one cycle take their answers from the cell or from the
promise, as threads or as futures, and each may give up.  The answers never contradict each other.

* `Execution.Replied.state`        a success was given by a published configuration;
* `Execution.Replied.slot`         a failure was given by the promise;
* `Execution.Replied.silent`       who gives up has changed nothing;
* `Execution.answers_agree`        all of it together.
-/

namespace IndexCoordinator

/-! ## replies -/

namespace Reply

variable {r : Reply} {result : ConfigurationResult}

theorem PassesOn.ok (h : r.PassesOn result) (hr : r.IsOk) : ∃ cfg, result = .ok cfg := by
  cases result with
  | ok cfg => exact ⟨cfg, rfl⟩
  | error e => obtain rfl | rfl := h <;> cases hr

theorem PassesOn.configuration {cfg : IndexConfiguration}
    (h : (Reply.configuration cfg).PassesOn result) : result = .ok cfg := by
  obtain h | h := h <;> cases result <;> cases h
  rfl

theorem PassesOn.failed {e : IndexError} (h : (Reply.failed e).PassesOn result) :
    result = .error e := by
  obtain h | h := h <;> cases result <;> cases h <;> rfl

end Reply

namespace Poll

variable {fired : Bool} {c c' : Cycle} {p : Poll} {cfg : IndexConfiguration}

theorem Moves.state (h : Moves fired c p c' (.stop (.ok cfg))) : c'.state = some cfg := by
  cases h with
  | found hs => exact hs
  | store => rfl

theorem Moves.slot {e : BuildError} (h : Moves fired c p c' (.stop (.error (.configuration e)))) :
    c.outcome.slot = some (.error e) := by
  cases h with
  | refused hs => exact hs

theorem Moves.isFired (h : Moves fired c p c' (.stop (.error .cancelled))) : fired = true := by
  cases h with
  | abandon _ hf => exact hf
  | cancel hf => exact hf

theorem Moves.of_storing {t : Turn Poll ConfigurationResult}
    (h : Moves fired c (.storing cfg) c' t) : t = .stop (.ok cfg) := by
  cases h with
  | store => rfl

theorem Moves.cells {t : Turn Poll ConfigurationResult} (h : Moves fired c p c' t)
    (ht : ∀ cfg, t ≠ .stop (.ok cfg)) : c' = c := by
  cases h with
  | store => exact absurd rfl (ht _)
  | _ => rfl

end Poll

/-! ## what a reply tells -/

namespace Execution

variable {E : Builds} {t u v i j : Nat} {r : Reply}

theorem Replied.state (hset : E.Avoids .setState) (h : E.Replied t i r) (hr : r.IsOk) :
    ∃ cfg, (E.cells t).state = some cfg ∧ (∀ cfg', r = .configuration cfg' → cfg' = cfg) := by
  obtain ⟨v, k, fired, answer, q, p, result, hv, hm, _, _, hpass, hstop⟩ := h.exists_stop
  obtain ⟨cfg, rfl⟩ := hpass.ok hr
  refine ⟨cfg, state_stays hset hstop.state hv, fun cfg' hr' => ?_⟩
  subst hr'
  cases hpass.configuration
  rfl

theorem Replied.slot {e : BuildError} (h : E.Replied t i (.failed (.configuration e))) :
    (E.cells t).outcome.slot = some (.error e) := by
  obtain ⟨v, k, fired, answer, q, p, result, hv, hm, _, _, hpass, hstop⟩ := h.exists_stop
  cases hpass.failed
  exact (cells_keep (Nat.le_of_lt hv)).outcome _ hstop.slot

theorem Replied.exists_fired (h : E.Replied t i (.failed .cancelled)) :
    ∃ v k answer q, v < t ∧ E.Moves v i (.call k) true answer q ∧
      q.self = .ended (.failed .cancelled) := by
  obtain ⟨v, k, fired, answer, q, p, result, hv, hm, hq, _, hpass, hstop⟩ := h.exists_stop
  cases hpass.failed
  obtain rfl := hstop.isFired
  exact ⟨v, k, answer, q, hv, hm, hq⟩

/-! ## who gives up -/

theorem Replied.isWait (h : E.Replied t i r) {k : CycleCall} (hk : E.proc? u i = some (.call k)) :
    k.operation.isWait = true := by
  obtain ⟨_, k₀, hwait, he, _⟩ := h
  obtain ⟨_, k₁, _, he', _, ho⟩ := exists_enters hk
  cases (he.unique he').2
  exact ho ▸ hwait.isWait

theorem Replied.exists_call (h : E.Replied t i r) {w : Work} {fired : Bool} {answer : Answering}
    {q : Progress Cycle Work} (hm : E.Moves u i w fired answer q) : ∃ k, w = .call k := by
  obtain ⟨_, k₀, _, he, _⟩ := h
  obtain ⟨k, hk, _⟩ | ⟨r', hr'⟩ := he.call_or_ended (he.lt_of_proc hm.proc)
  · exact ⟨k, Option.some.inj (hm.proc.symm.trans hk)⟩
  · cases hm.proc.symm.trans hr'
    cases hm.leads

theorem storing_succeeds {k : CycleCall} {cfg : IndexConfiguration}
    (h : E.proc? t i = some (.call k)) (hwait : k.operation.isWait = true)
    (hk : k.wait? = some (.storing cfg)) (htu : t ≤ u) :
    E.proc? u i = some (.call k) ∨ ∃ r, E.proc? u i = some (.ended r) ∧ r.PassesOn (.ok cfg) := by
  induction u, htu using Nat.le_induction with
  | base => exact .inl h
  | succ u _ ih =>
    obtain hu | ⟨r, hr, hpass⟩ := ih
    · obtain h' | ⟨fired, answer, q, hm⟩ := Execution.proc_succ hu
      · exact .inl h'
      · obtain ⟨_, _, p, hp, ⟨_, _, _, _, _, hmove⟩ | ⟨r, result, hq, hpass, hmove⟩⟩ :=
          hm.work.of_wait hwait
        · cases hk.symm.trans hp
          cases hmove.of_storing
        · cases hk.symm.trans hp
          cases hmove.of_storing
          exact .inr ⟨r, hq ▸ hm.self_succ, hpass⟩
    · exact .inr ⟨r, reply_stays hr (Nat.le_succ u), hpass⟩

section
variable {k : CycleCall} {fired : Bool} {answer : Answering} {q : Progress Cycle Work}

/-- **A move of a caller that gives up:** it has no success to come, and changes no cell. -/
theorem Replied.move_of_cancelled (h : E.Replied t i (.failed .cancelled))
    (hm : E.Moves v i (.call k) fired answer q) :
    q.shared = E.cells v ∧ q.spawned = [] ∧ q.events = [] ∧
      ∃ p turn, k.wait? = some p ∧ Poll.Moves fired (E.cells v) p (E.cells v) turn ∧
        (∀ cfg, turn ≠ .go (.storing cfg)) ∧
        ∀ result, turn = .stop result → result = .error .cancelled := by
  obtain ⟨u, k₀, hk₀, he, hr⟩ := h
  have hwait := Replied.isWait ⟨u, k₀, hk₀, he, hr⟩ hm.proc
  obtain ⟨hspawned, hevents, p, hp, ⟨k', p', hq, hk', ho, hmove⟩ | ⟨r, result, hq, hpass, hmove⟩⟩ :=
    hm.work.of_wait hwait
  · have hcells := hmove.cells nofun
    rw [hcells] at hmove
    refine ⟨hcells, hspawned, hevents, p, _, hp, hmove, fun cfg hgo => ?_, nofun⟩
    cases hgo
    -- it would succeed
    have hself : E.proc? (v + 1) i = some (.call k') := hq ▸ hm.self_succ
    obtain hcall | ⟨r, hr', hpass⟩ :=
      storing_succeeds hself (ho ▸ hwait) hk' (Nat.le_max_left (v + 1) t)
    · cases (reply_stays hr (Nat.le_max_right (v + 1) t)).symm.trans hcall
    · cases reply_unique hr hr'
      cases hpass.failed
  · have hself : E.proc? (v + 1) i = some (.ended r) := hq ▸ hm.self_succ
    cases reply_unique hr hself
    cases hpass.failed
    have hcells := hmove.cells nofun
    rw [hcells] at hmove
    refine ⟨hcells, hspawned, hevents, p, _, hp, hmove, nofun, fun result h => ?_⟩
    cases h
    rfl

theorem Replied.unread (h : E.Replied t i (.failed .cancelled))
    (hm : E.Moves v i (.call k) fired answer q) (hk : k.wait? = some .reading) :
    (E.cells v).state = none := by
  obtain ⟨_, _, _, p, turn, hp, hmove, _, hstop⟩ := h.move_of_cancelled hm
  cases hk.symm.trans hp
  cases hmove with
  | found => cases hstop _ rfl
  | missing hs => exact hs

theorem Replied.unseen (h : E.Replied t i (.failed .cancelled))
    (hm : E.Moves v i (.call k) fired answer q) (hk : k.wait? = some .looking) :
    (E.cells v).outcome.slot = none := by
  obtain ⟨_, _, _, p, turn, hp, hmove, hgo, hstop⟩ := h.move_of_cancelled hm
  cases hk.symm.trans hp
  cases hmove with
  | received => exact absurd rfl (hgo _)
  | refused => cases hstop _ rfl
  | abandon hs => exact hs
  | doubt hs => exact hs

end

/-- **Who gives up has changed nothing.** -/
theorem Replied.silent (h : E.Replied t i (.failed .cancelled)) : E.Silent i := by
  intro v w fired answer q hm
  obtain ⟨k, rfl⟩ := h.exists_call hm
  obtain ⟨hcells, hspawned, hevents, _⟩ := h.move_of_cancelled hm
  exact ⟨hcells, hspawned, hevents⟩

/-! ## agreement -/

/-- **Waiting callers agree.**  However the build of a cycle and any callers are interleaved, as
long as no caller sets the configuration: the extension host is asked for its descriptors at most
once; all configurations that callers are given are the same, all build errors are the same, and no
caller succeeds when another is given a build error.  Who gives up moved last with its token fired,
has read an empty cell and has only seen the promise unresolved; without its moves everything else
happens in the same way, and whatever others can do with it they can do without it.  The
configuration in the cell never changes. -/
theorem answers_agree (hset : E.Avoids .setState) :
    (∀ t, (E.run t).trace.countP Event.isListing ≤ 1) ∧
    (∀ t u i j cfg cfg', E.Replied t i (.configuration cfg) → E.Replied u j (.configuration cfg') →
      cfg = cfg') ∧
    (∀ t u i j e e', E.Replied t i (.failed (.configuration e)) →
      E.Replied u j (.failed (.configuration e')) → e = e') ∧
    (∀ t u i j r e, E.Replied t i r → r.IsOk → ¬ E.Replied u j (.failed (.configuration e))) ∧
    (∀ t i, E.Replied t i (.failed .cancelled) →
      (∃ v k answer q, v < t ∧ E.Moves v i (.call k) true answer q ∧
        q.self = .ended (.failed .cancelled)) ∧
      (∀ v k fired answer q, E.Moves v i (.call k) fired answer q →
        (k.wait? = some .reading → (E.cells v).state = none) ∧
        (k.wait? = some .looking → (E.cells v).outcome.slot = none)) ∧
      ∃ E' : Builds, (∀ u, E'.cue u = (E.cue u).without i) ∧
        ∀ u cues, (∀ c ∈ cues, c.isMoveOf i = false) →
          Run.AgreeBut i ((E.run u).followAll Work.next cues)
            ((E'.run u).followAll Work.next cues)) ∧
    ∀ t u cfg, t ≤ u → (E.cells t).state = some cfg → (E.cells u).state = some cfg := by
  refine ⟨countP_listings, fun t u i j cfg cfg' h h' => ?_, fun t u i j e e' h h' => ?_,
    fun t u i j r e h hr h' => ?_, fun t i h => ⟨h.exists_fired, fun v k fired answer q hm =>
      ⟨h.unread hm, h.unseen hm⟩, h.silent.exists_without⟩,
    fun t u cfg htu h => state_stays hset h htu⟩
  · obtain ⟨c, hc, heq⟩ := h.state hset trivial
    obtain ⟨c', hc', heq'⟩ := h'.state hset trivial
    have hmax := state_stays hset hc (Nat.le_max_left t u)
    have hmax' := state_stays hset hc' (Nat.le_max_right t u)
    cases hmax.symm.trans hmax'
    rw [heq cfg rfl, heq' cfg' rfl]
  · have hmax := (cells_keep (E := E) (Nat.le_max_left t u)).outcome _ h.slot
    have hmax' := (cells_keep (E := E) (Nat.le_max_right t u)).outcome _ h'.slot
    cases hmax.symm.trans hmax'
    rfl
  · obtain ⟨cfg, hc, _⟩ := h.state hset hr
    have hmax := state_stays hset hc (Nat.le_max_left t u)
    have hmax' := (cells_keep (E := E) (Nat.le_max_right t u)).outcome _ h'.slot
    cases hmax.symm.trans (state_none_of_slot hset hmax')

/-- three callers wait for one build: a thread, a future that gives up, and a future that does
not -/
def trio : Builds :=
  .ofScript (.granting [])
    [(.submitting .claiming, []), (.awaitingConfiguration .reading, []),
      (.pollingConfiguration .reading, []),
      (.pollingConfiguration .reading, [1, 2, 3, 2, 3, 3].map (·, false) ++ (2, true) ::
        ([0, 0, 0] ++ List.replicate 12 4 ++ [1, 1, 3, 3, 3]).map (·, false))]
    ⟨.submit, .awaitConfiguration, .pollConfiguration, .pollConfiguration⟩

theorem trio_avoids : trio.Avoids .setState := ofScript_avoids (by decide)

theorem trio_given {i : Nat} (hi : i = 1 ∨ i = 3) :
    ∃ cfg, trio.Replied 31 i (.configuration cfg) := by
  have h : ((trio.proc? 31 i).bind Work.reply?).any Reply.isConfiguration = true := by
    obtain rfl | rfl := hi <;> decide +kernel
  obtain ⟨r, hr, hcfg⟩ := exists_reply h
  cases r with
  | configuration cfg =>
    obtain rfl | rfl := hi
    · exact ⟨cfg, 1, _, .configuration, ⟨rfl, rfl⟩, hr⟩
    · exact ⟨cfg, 3, _, .poll, ⟨rfl, rfl⟩, hr⟩
  | _ => cases hcfg

theorem trio_cancelled : trio.Replied 31 2 (.failed .cancelled) := by
  have h : ((trio.proc? 31 2).bind Work.reply?).any (Reply.isFailure .cancelled) = true := by
    decide +kernel
  obtain ⟨r, hr, he⟩ := exists_reply h
  cases r with
  | failed e =>
    obtain rfl := eq_of_beq he
    exact ⟨2, _, .poll, ⟨rfl, rfl⟩, hr⟩
  | _ => cases he

/-- the thread and the patient future are given one configuration, also without the other future -/
theorem answers_agree_trio :
    trio.Avoids .setState ∧
    (∃ cfg, trio.Replied 31 1 (.configuration cfg) ∧ trio.Replied 31 3 (.configuration cfg)) ∧
    trio.Replied 31 2 (.failed .cancelled) ∧
    ∃ E' : Builds, (∀ u, E'.cue u = (trio.cue u).without 2) ∧
      E'.cells 31 = trio.cells 31 ∧ ∀ j, j ≠ 2 → E'.proc? 31 j = trio.proc? 31 j := by
  obtain ⟨_, hsame, _, _, hcancel, _⟩ := answers_agree trio_avoids
  obtain ⟨cfg, h₁⟩ := trio_given (.inl rfl)
  obtain ⟨cfg', h₃⟩ := trio_given (.inr rfl)
  obtain rfl := hsame _ _ _ _ _ _ h₁ h₃
  obtain ⟨_, _, E', hcue, hagree⟩ := hcancel _ _ trio_cancelled
  have hend := hagree 31 [] fun _ h => absurd h List.not_mem_nil
  exact ⟨trio_avoids, ⟨cfg, h₁, h₃⟩, trio_cancelled, E', hcue, hend.shared, hend.others⟩

end Execution

end IndexCoordinator
