import IndexCoordinator.Proofs.Service.Succession

/-!
# Requests after the shutdown

Once the service is shut down, whoever comes in with a request is on the way to being told so.

* `Job.refusal?`             how many moves away from this a job is;
* `Job.Moves.refused`        one move, which does nothing else;
* `Job.next_of_refusal`      nothing but the lock in other hands can stop it;
* `Job.next_of_inside`       who holds the lock can move on, or is disposing of storage;
* `Execution.Nears.turn`     a turn of such a job brings it closer;
* `Execution.Enters.refused` a request that comes in late is refused.
-/

namespace IndexCoordinator

namespace Job

/-- the calls of the service that ask it for something -/
def IsRequest (j : Job) : Prop :=
  j = .changing .acquiring ∨ j = .awaitingPending .looking ∨ ∃ k, IsLookup k ∧ j = .lookingUp k

/-- how many moves away a job is from being told that the service is shut down -/
def refusal? : Job → Option Nat
  | .changing .acquiring => some 3
  | .changing .checking => some 2
  | .changing .refusing => some 1
  | .awaitingPending .looking => some 2
  | .awaitingPending .checking => some 1
  | .lookingUp _ => some 1
  | .ended (.failed .shutDown) => some 0
  | _ => none

def setLock (w : Coordinator) (locked : Bool) : Coordinator :=
  setService w { w.service with locked := locked }

section
variable {fired : Bool} {answer : Answering} {w : Coordinator} {j : Job}
  {q : Progress Coordinator Job} {n : Nat}

theorem IsRequest.exists_refusal (h : j.IsRequest) : ∃ n, n ≤ 3 ∧ j.refusal? = some n := by
  obtain rfl | rfl | ⟨k, _, rfl⟩ := h
  · exact ⟨3, Nat.le_refl 3, rfl⟩
  · exact ⟨2, by decide, rfl⟩
  · exact ⟨1, by decide, rfl⟩

theorem reply_of_refusal {r : Reply} (h : (Job.ended r).refusal? = some n) :
    r = .failed .shutDown := by
  cases r with
  | failed e =>
    cases e with
    | shutDown => rfl
    | _ => cases h
  | _ => cases h

theorem eq_ended_of_refusal (h : j.refusal? = some 0) : j = .ended (.failed .shutDown) := by
  unfold refusal? at h
  split at h <;> cases h
  rfl

/-- **One move of a job that is going to be refused:** it comes one closer, starts nothing, calls
nobody, and changes nothing but the lock. -/
theorem Moves.refused (h : Moves fired answer w j q) (hshut : w.service.shutDown = true)
    (hclosed : w.service.locked = false → w.Closed) (hj : j.refusal? = some n) :
    ∃ m, n = m + 1 ∧ q.self.refusal? = some m ∧ q.spawned = [] ∧ q.events = [] ∧
      ∃ locked, q.shared = setLock w locked := by
  have hopen {P : Prop} (h : w.service.shutDown = false) : P := by
    rw [hshut] at h
    cases h
  cases h with
  | acquire _ h =>
    unfold afterLock at h
    split at h <;> cases h <;> cases hj
    exact ⟨2, rfl, rfl, rfl, rfl, true, rfl⟩
  | release h =>
    unfold afterUnlock at h
    split at h <;> cases h <;> cases hj
    exact ⟨0, rfl, rfl, rfl, rfl, false, rfl⟩
  | refuse | settled =>
    cases hj
    exact ⟨1, rfl, rfl, rfl, rfl, w.service.locked, rfl⟩
  | late | reject =>
    cases hj
    exact ⟨0, rfl, rfl, rfl, rfl, w.service.locked, rfl⟩
  | permit h | ready h | passOn h => exact hopen h
  | cancelled hl hpend => exact absurd (hclosed hl hshut).1 hpend
  | _ => cases hj

/-- **Only others who hold the lock stop it,** and only where it looks for the lock. -/
theorem next_of_refusal (hshut : w.service.shutDown = true)
    (hclosed : w.service.locked = false → w.Closed) (hj : j.refusal? = some (n + 1))
    (hfree : j = .changing .acquiring ∨ j = .awaitingPending .looking →
      w.service.locked = false) : ∃ q, next fired w j = .act q := by
  unfold refusal? at hj
  split at hj <;> cases hj
  · exact ⟨{ shared := lock w, self := .changing .checking }, by
      simp only [next, nextChange, acquire, hfree (.inl rfl)]
      rfl⟩
  · exact ⟨_, rfl⟩
  · exact ⟨_, rfl⟩
  · have hl := hfree (.inr rfl)
    have hpend := (hclosed hl hshut).1
    refine ⟨{ shared := w, self := .awaitingPending .checking }, ?_⟩
    simp only [next, nextPendingWait, hl, hpend]
    rfl
  · exact ⟨_, rfl⟩
  · exact ⟨_, rfl⟩

theorem exists_shut (w : Coordinator) (i : Nat) (s : Shutdown) (again : Shutdown → Job)
    (after : Job) : ∃ q, shut w i s again after = .act q := by
  unfold shut
  split
  · exact ⟨_, rfl⟩
  · split <;> exact ⟨_, rfl⟩

/-- **Only storage can keep others from the lock.** -/
theorem next_of_inside (hin : j.inside = true) (hs : w.Section j) :
    j = .closing .disposing ∨ ∀ fired, ∃ q, next fired w j = .act q := by
  cases j with
  | changing s =>
    cases s with
    | acquiring | spawning => cases hin
    | submitting next s =>
      obtain ⟨_, _, hlt, _⟩ := hs
      have hc : w.cycle? next = some w.cycles[next] := List.getElem?_eq_getElem hlt
      refine .inr fun fired => ?_
      simp only [Job.next, nextChange, hc]
      split <;> exact ⟨_, rfl⟩
    | superseding => exact .inr fun fired => exists_shut w _ _ _ _
    | _ => exact .inr fun fired => ⟨_, rfl⟩
  | promoting next s =>
    cases s with
    | waiting | acquiring => cases hin
    | comparing =>
      refine .inr fun fired => ?_
      simp only [Job.next, nextPromotion]
      split <;> exact ⟨_, rfl⟩
    | retiring => exact .inr fun fired => exists_shut w _ _ _ _
    | _ => exact .inr fun fired => ⟨_, rfl⟩
  | closing s =>
    cases s with
    | acquiring => cases hin
    | claiming =>
      refine .inr fun fired => ?_
      simp only [Job.next, nextClosing]
      split <;> exact ⟨_, rfl⟩
    | abandoning | retiring => exact .inr fun fired => exists_shut w _ _ _ _
    | disposing => exact .inl rfl
    | _ => exact .inr fun fired => ⟨_, rfl⟩
  | _ => cases hin

end

end Job

namespace Execution

theorem start_isInitial : ∃ settings, Coordinator.start {} = .start settings := ⟨_, rfl⟩

/-- the execution of a script: callers of the service come in one after the other, and after each of
them processes move; collaborators always answer alike -/
def ofRequests (answer : Answering) (script : List (Job × List Nat))
    (h : script.Forall fun line => line.1.IsRequest) : Services :=
  .ofList (.start {})
    (script.flatMap fun line => .enter line.1 :: line.2.map fun i => .move i false answer)
    start_isInitial fun j hj _ => by
      obtain ⟨line, hline, hcue⟩ := List.mem_flatMap.mp hj
      obtain heq | hmove := List.mem_cons.mp hcue
      · cases heq
        obtain hr | hr | ⟨k, hk, hr⟩ := List.forall_iff_forall_mem.mp h line hline
        · exact .inl hr
        · exact .inr (.inr (.inl hr))
        · exact .inr (.inr (.inr (.inl ⟨k, hk, hr⟩)))
      · obtain ⟨_, _, heq⟩ := List.mem_map.mp hmove
        cases heq

section
variable (E : Services) (t i : Nat)

/-- whatever its token says, a process has a next move of its own -/
def CanMove : Prop :=
  ∃ j, E.proc? t i = some j ∧ ∀ fired, ∃ q, Job.next fired (E.cells t) j = .act q

def Looks : Prop :=
  E.proc? t i = some (.changing .acquiring) ∨ E.proc? t i = some (.awaitingPending .looking)

/-- it is the turn of a process, and if it looks for the lock it finds it free -/
def Turn : Prop :=
  (∃ fired answer, E.cue t = .move i fired answer) ∧
    (E.Looks t i → (E.cells t).service.locked = false)

/-- a process that came in at a moment is refused: it is told that the service is shut down and
nothing else, its moves start nothing, call nobody and change nothing but the lock, its third turn
ends it at the latest, and until then it can move, or looks for the lock while the one who holds it
can move or is disposing of storage -/
structure Refused : Prop where
  reply : ∀ u r, t < u → E.proc? u i = some (.ended r) → r = .failed .shutDown
  moves : ∀ u j fired answer q, t < u → E.Moves u i j fired answer q →
    q.spawned = [] ∧ q.events = [] ∧ ∃ locked, q.shared = Job.setLock (E.cells u) locked
  ends : ∀ u₁ u₂ u₃, t < u₁ → u₁ < u₂ → u₂ < u₃ → E.Turn u₁ i → E.Turn u₂ i → E.Turn u₃ i →
    E.proc? (u₃ + 1) i = some (.ended (.failed .shutDown))
  waits : ∀ u, t < u → E.proc? u i = some (.ended (.failed .shutDown)) ∨ E.CanMove u i ∨
    E.Looks u i ∧
      ∃ k j, E.proc? u k = some j ∧ j.inside = true ∧ (j = .closing .disposing ∨ E.CanMove u k)

def Nears (n : Nat) : Prop := ∃ j m, E.proc? t i = some j ∧ j.refusal? = some m ∧ m ≤ n

end

variable {E : Services} {t u i n : Nat} {j : Job}

theorem closed_of_free (t : Nat) : (E.cells t).service.locked = false → (E.cells t).Closed :=
  fun h => ((orderly t).of_free h).2.1

/-- a lock that is taken is in the hands of a process that goes on -/
theorem exists_holder (h : (E.cells t).service.locked = true) :
    ∃ k j, E.proc? t k = some j ∧ j.inside = true ∧ (j = .closing .disposing ∨ E.CanMove t k) := by
  have hone : (E.run t).procs.countP Job.inside = 1 :=
    (orderly t).countP_inside.trans (if_pos h)
  obtain ⟨j, hj, hin⟩ := List.countP_pos_iff.mp (hone ▸ Nat.one_pos)
  obtain ⟨k, hk⟩ := List.getElem?_of_mem hj
  exact ⟨k, j, hk, hin,
    (Job.next_of_inside hin ((orderly t).section hj hin)).imp_right fun hnext => ⟨j, hk, hnext⟩⟩

/-! ### the way to the refusal -/

theorem Nears.eq_ended (h : E.Nears t i 0) : E.proc? t i = some (.ended (.failed .shutDown)) := by
  obtain ⟨j, m, hj, hm, hle⟩ := h
  obtain rfl := Nat.le_zero.mp hle
  obtain rfl := Job.eq_ended_of_refusal hm
  exact hj

theorem Nears.stay (h : E.Nears t i n) (hs : (E.cells t).service.shutDown = true) (htu : t ≤ u) :
    E.Nears u i n := by
  induction u, htu using Nat.le_induction with
  | base => exact h
  | succ u htu ih =>
    obtain ⟨j, m, hj, hm, hle⟩ := ih
    obtain hj' | ⟨fired, answer, q, hmove⟩ := Execution.proc_succ hj
    · exact ⟨j, m, hj', hm, hle⟩
    · obtain ⟨m, rfl, hq, _⟩ := hmove.job.refused ((keeps htu).shutDown hs) (closed_of_free u) hm
      exact ⟨q.self, m, hmove.self_succ, hq, Nat.le_of_succ_le hle⟩

theorem Nears.turn (h : E.Nears t i (n + 1)) (hs : (E.cells t).service.shutDown = true)
    (hturn : E.Turn t i) : E.Nears (t + 1) i n := by
  obtain ⟨j, m, hj, hm, hle⟩ := h
  obtain ⟨⟨fired, answer, hcue⟩, hfree⟩ := hturn
  cases m with
  | zero =>
    obtain ⟨j', m, hj', hm', hle'⟩ :=
      Nears.stay (n := 0) ⟨j, 0, hj, hm, Nat.le_refl 0⟩ hs (Nat.le_succ t)
    exact ⟨j', m, hj', hm', Nat.le_trans hle' (Nat.zero_le n)⟩
  | succ m =>
    have hlook (hlook : j = .changing .acquiring ∨ j = .awaitingPending .looking) :
        (E.cells t).service.locked = false := by
      refine hfree (hlook.imp ?_ ?_) <;> exact fun h => h ▸ hj
    obtain ⟨q, hq⟩ : ∃ q, Job.next fired (E.cells t) j = .act q :=
      Job.next_of_refusal hs (closed_of_free t) hm hlook
    have hmove : E.Moves t i j fired answer q := .of_cue hcue hj (by rw [hq]; rfl)
    obtain ⟨_, hmn, hself, _⟩ := hmove.job.refused hs (closed_of_free t) hm
    cases hmn
    exact ⟨q.self, m, hmove.self_succ, hself, Nat.le_of_succ_le_succ hle⟩

/-- **A request that comes in late is refused.** -/
theorem Enters.refused (h : E.Enters t i j) (hj : j.IsRequest)
    (hs : (E.cells t).service.shutDown = true) : E.Refused t i := by
  have hshut (u : Nat) (htu : t < u) : (E.cells u).service.shutDown = true :=
    (keeps (Nat.le_of_lt htu)).shutDown hs
  have hnears (u : Nat) (htu : t < u) : E.Nears u i 3 := by
    obtain ⟨n, hle, hn⟩ := hj.exists_refusal
    exact Nears.stay ⟨j, n, h.proc_succ, hn, hle⟩ (hshut (t + 1) (Nat.lt_succ_self t)) htu
  refine ⟨fun u r htu hr => ?_, fun u p fired answer q htu hm => ?_,
    fun u₁ u₂ u₃ h₁ h₂ h₃ hturn₁ hturn₂ hturn₃ => ?_, fun u htu => ?_⟩
  · obtain ⟨p, n, hp, hn, _⟩ := hnears u htu
    cases hp.symm.trans hr
    exact Job.reply_of_refusal hn
  · obtain ⟨p, n, hp, hn, _⟩ := hnears u htu
    cases hp.symm.trans hm.proc
    obtain ⟨_, _, _, hspawned, hevents, hshared⟩ :=
      hm.job.refused (hshut u htu) (closed_of_free u) hn
    exact ⟨hspawned, hevents, hshared⟩
  · have hs₁ := hshut u₁ h₁
    have hs₂ := hshut u₂ (Nat.lt_trans h₁ h₂)
    have hs₃ := hshut u₃ (Nat.lt_trans h₁ (Nat.lt_trans h₂ h₃))
    have htwo := ((hnears u₁ h₁).turn hs₁ hturn₁).stay (hshut _ (Nat.lt_succ_of_lt h₁)) h₂
    have hone := (htwo.turn hs₂ hturn₂).stay
      (hshut _ (Nat.lt_succ_of_lt (Nat.lt_trans h₁ h₂))) h₃
    exact (hone.turn hs₃ hturn₃).eq_ended
  · obtain ⟨p, n, hp, hn, _⟩ := hnears u htu
    cases n with
    | zero =>
      obtain rfl := Job.eq_ended_of_refusal hn
      exact .inl hp
    | succ n =>
      by_cases hfree : p = .changing .acquiring ∨ p = .awaitingPending .looking →
          (E.cells u).service.locked = false
      · exact .inr (.inl ⟨p, hp, fun _ =>
          Job.next_of_refusal (hshut u htu) (closed_of_free u) hn hfree⟩)
      · obtain ⟨hlook, hl⟩ := Classical.not_imp.mp hfree
        refine .inr (.inr ⟨hlook.imp ?_ ?_, exists_holder (Bool.not_eq_false _ ▸ hl)⟩) <;>
          exact fun h => h ▸ hp

end Execution

end IndexCoordinator
