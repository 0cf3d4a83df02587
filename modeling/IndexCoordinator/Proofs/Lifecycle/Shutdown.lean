import IndexCoordinator.Lifecycle
import IndexCoordinator.Proofs.Balance
import IndexCoordinator.Proofs.Fairness
import Mathlib.Order.Bounds.Defs

/-!
# Phases and the shutdown of a lifecycle

Any number of calls come in at one lifecycle.  Some advance its phase, some claim its shutdown with
or without a body, and some cancel its token directly.  The claim and the cancellation that follows
it are two moves.

* `LifecycleCall.Moves`    the moves on a lifecycle;
* `LifecycleCall.Stands`   where a call can stand, by how it came in;
* `Execution.Claimant`     the call that has the claim; there is at most one
                           (`Execution.Claimant.unique`);
* `Execution.isGreatest_phase`   the phase is the latest one advanced to;
* `Lifecycles.Guarded`     what callers rely on, in every execution (`Lifecycles.guarded`).
-/

namespace IndexCoordinator

def Event.isBody : Event → Bool
  | .body _ => true
  | _ => false

namespace LifecycleCall

inductive Fresh : LifecycleCall → Prop where
  | advance (target : Phase) : Fresh (.advancing target)
  /-- it shuts down, and runs a body afterwards if there is one -/
  | shutDown (body : Option ShutdownBody) : Fresh (.shuttingDown .claiming body)
  | cancel : Fresh (.cancelling false)

def Over (k : LifecycleCall) : Prop := ∀ fired l, next fired l k = .blocked

def hasClaimed : LifecycleCall → Bool
  | .shuttingDown .cancelling _ => true
  | .running _ => true
  | .ended true => true
  | .unwound _ => true
  | _ => false

/-- how a shutdown ends that had the claim -/
def won : Option ShutdownBody → LifecycleCall
  | none => .ended true
  | some b =>
    match b.panics with
    | none => .ended true
    | some p => .unwound p

/-- the moves on a lifecycle: what they make of it, where they lead and which body has run -/
inductive Moves (l : Lifecycle) : LifecycleCall → Lifecycle → LifecycleCall → List Event → Prop where
  | advance {target : Phase} : Moves l (.advancing target) (l.advance target) (.advanced l.phase) []
  | claim {body : Option ShutdownBody} : l.shutdownPerformed = false →
      Moves l (.shuttingDown .claiming body) { l with shutdownPerformed := true }
        (.shuttingDown .cancelling body) []
  | refuse {body : Option ShutdownBody} : l.shutdownPerformed = true →
      Moves l (.shuttingDown .claiming body) l (.ended false) []
  | finish : Moves l (.shuttingDown .cancelling none) l.cancel (won none) []
  | begin {b : ShutdownBody} : Moves l (.shuttingDown .cancelling (some b)) l.cancel (.running b) []
  | run {b : ShutdownBody} : Moves l (.running b) l (won (some b)) [.body b.tag]
  | late : l.isCancelled = true → Moves l (.cancelling false) l (.cancelled false) []
  | look : l.isCancelled = false → Moves l (.cancelling false) l (.cancelling true) []
  | cancel : Moves l (.cancelling true) l.cancel (.cancelled true) []

section
variable {fired : Bool} {answer : Answering} {l l' : Lifecycle} {k k' : LifecycleCall}
  {marks : List Event} {q : Progress Lifecycle LifecycleCall}

/-- **Every move on a lifecycle is one of these**; it starts nothing. -/
theorem moves_of_next (h : (next fired l k).under answer = some q) :
    Moves l k q.shared q.self q.events ∧ q.spawned = [] := by
  cases k with
  | advancing target =>
    cases h
    exact ⟨.advance, rfl⟩
  | shuttingDown stage body =>
    cases stage with
    | claiming =>
      cases hflag : l.shutdownPerformed with
      | true =>
        simp only [next, Shutdown.next, hflag] at h
        cases h
        exact ⟨.refuse hflag, rfl⟩
      | false =>
        simp only [next, Shutdown.next, hflag] at h
        cases h
        exact ⟨.claim hflag, rfl⟩
    | cancelling =>
      cases body with
      | none =>
        cases h
        exact ⟨.finish, rfl⟩
      | some b =>
        cases h
        exact ⟨.begin, rfl⟩
  | running b =>
    cases h
    exact ⟨.run, rfl⟩
  | cancelling looked =>
    cases looked with
    | true =>
      cases h
      exact ⟨.cancel, rfl⟩
    | false =>
      cases hc : l.isCancelled with
      | true =>
        simp only [next, hc] at h
        cases h
        exact ⟨.late hc, rfl⟩
      | false =>
        simp only [next, hc] at h
        cases h
        exact ⟨.look hc, rfl⟩
  | advanced | ended | unwound | cancelled => cases h

/-- flag and token of a lifecycle only go one way -/
structure GoesOn (l l' : Lifecycle) : Prop where
  flag : l.shutdownPerformed = true → l'.shutdownPerformed = true
  token : l.isCancelled = true → l'.isCancelled = true

theorem Moves.goesOn (h : Moves l k l' k' marks) : GoesOn l l' := by
  cases h with
  | advance => exact ⟨id, id⟩
  | claim => exact ⟨fun _ => rfl, id⟩
  | refuse | run | late | look => exact ⟨id, id⟩
  | finish | begin | cancel => exact ⟨id, fun _ => rfl⟩

theorem Moves.phase (h : Moves l k l' k' marks) :
    l'.phase = l.phase ∨ ∃ target, k = .advancing target ∧ l'.phase = l.phase.later target := by
  cases h with
  | advance => exact .inr ⟨_, rfl, rfl⟩
  | _ => exact .inl rfl

/-- what the end of a call, or a body that runs, tells about flag and token -/
def Fits (l : Lifecycle) : LifecycleCall → Prop
  | .ended false => l.shutdownPerformed = true
  | .ended true => l.isCancelled = true
  | .running _ => l.isCancelled = true
  | .unwound _ => l.isCancelled = true
  | .cancelled _ => l.isCancelled = true
  | _ => True

theorem Fits.still (h : k.Fits l) (hl : GoesOn l l') : k.Fits l' := by
  unfold Fits at h ⊢
  split at h
  · exact hl.flag h
  · exact hl.token h
  · exact hl.token h
  · exact hl.token h
  · exact hl.token h
  · trivial

theorem fits_won_iff {body : Option ShutdownBody} : (won body).Fits l ↔ l.isCancelled = true := by
  unfold won
  split
  · rfl
  · split <;> rfl

theorem Moves.fits (h : Moves l k l' k' marks) (hk : k.Fits l) : k'.Fits l' := by
  cases h with
  | refuse hflag => exact hflag
  | finish | begin | cancel => exact rfl
  | run => exact fits_won_iff.mpr hk
  | late hc => exact hc
  | advance | claim | look => trivial

/-- where a call can stand, by the position at which it came in -/
inductive Stands : LifecycleCall → LifecycleCall → Prop where
  | fresh {k : LifecycleCall} : k.Fresh → Stands k k
  | advanced {target previous : Phase} : Stands (.advancing target) (.advanced previous)
  | refused {body : Option ShutdownBody} : Stands (.shuttingDown .claiming body) (.ended false)
  | claimed {body : Option ShutdownBody} :
      Stands (.shuttingDown .claiming body) (.shuttingDown .cancelling body)
  | running {b : ShutdownBody} : Stands (.shuttingDown .claiming (some b)) (.running b)
  | finished {body : Option ShutdownBody} {k : LifecycleCall} :
      k = won body → Stands (.shuttingDown .claiming body) k
  | looked : Stands (.cancelling false) (.cancelling true)
  | cancelled {first : Bool} : Stands (.cancelling false) (.cancelled first)

def ahead : LifecycleCall → Nat
  | .advancing _ => 1
  | .shuttingDown .claiming _ => 3
  | .shuttingDown .cancelling _ => 2
  | .running _ => 1
  | .cancelling false => 2
  | .cancelling true => 1
  | _ => 0

theorem ahead_won (body : Option ShutdownBody) : (won body).ahead = 0 := by
  unfold won
  split
  · rfl
  · split <;> rfl

theorem ne_won {body : Option ShutdownBody} (h : k.ahead ≠ 0) : k ≠ won body := by
  rintro rfl
  exact h (ahead_won body)

theorem hasClaimed_won (body : Option ShutdownBody) : (won body).hasClaimed = true := by
  unfold won
  split
  · rfl
  · split <;> rfl

theorem Moves.ahead (h : Moves l k l' k' marks) : k'.ahead < k.ahead := by
  cases h with
  | finish | run => rw [ahead_won]; exact Nat.succ_pos _
  | _ => simp [LifecycleCall.ahead]

theorem Moves.stands {k₀ : LifecycleCall} (h : Moves l k l' k' marks) (hk : k₀.Stands k) :
    k₀.Stands k' := by
  cases hk with
  | fresh hf =>
    cases hf with
    | advance => cases h; exact .advanced
    | shutDown =>
      cases h with
      | claim => exact .claimed
      | refuse => exact .refused
    | cancel =>
      cases h with
      | late => exact .cancelled
      | look => exact .looked
  | claimed =>
    cases h with
    | finish => exact .finished rfl
    | begin => exact .running
  | running => cases h; exact .finished rfl
  | looked => cases h; exact .cancelled
  | finished he =>
    have hlt := h.ahead
    rw [he, ahead_won] at hlt
    cases hlt
  | advanced | refused | cancelled => cases h

theorem over_of_ahead (h : k.ahead = 0) : k.Over := by
  cases k with
  | advanced | ended | unwound | cancelled => exact fun _ _ => rfl
  | advancing | running => cases h
  | shuttingDown stage => cases stage <;> cases h
  | cancelling looked => cases looked <;> cases h

theorem over_won (body : Option ShutdownBody) : (won body).Over := over_of_ahead (ahead_won body)

theorem Stands.of_over {body : Option ShutdownBody} (h : Stands (.shuttingDown .claiming body) k)
    (hover : k.Over) : k = .ended false ∨ k = won body := by
  have hmove := hover false (.ofGeneration 0)
  cases h with
  | refused => exact .inl rfl
  | finished he => exact .inr he
  | claimed => cases body <;> cases hmove
  | fresh | running => cases hmove

theorem isSome_next (h : k.ahead ≠ 0) (fired : Bool) (answer : Answering) (l : Lifecycle) :
    ((next fired l k).under answer).isSome = true := by
  cases k with
  | advancing | running => rfl
  | shuttingDown stage body =>
    cases stage with
    | claiming => cases hflag : l.shutdownPerformed <;> simp [next, Shutdown.next, hflag]
    | cancelling => cases body <;> rfl
  | cancelling looked => cases looked <;> rfl
  | advanced | ended | unwound | cancelled => exact absurd rfl h

theorem Moves.hasClaimed (h : Moves l k l' k' marks) (hk : k.hasClaimed = true) :
    k'.hasClaimed = true := by
  cases h with
  | finish | run => exact hasClaimed_won _
  | begin => rfl
  | _ => cases hk

theorem Moves.events (h : Moves l k l' k' marks) :
    marks = [] ∨ ∃ b, k = .running b ∧ marks = [.body b.tag] := by
  cases h with
  | run => exact .inr ⟨_, rfl, rfl⟩
  | _ => exact .inl rfl

def claims (l : Lifecycle) : Nat := if l.shutdownPerformed then 0 else 1

theorem claims_advance (target : Phase) : claims (l.advance target) = claims l := rfl

theorem claims_cancel : claims l.cancel = claims l := rfl

theorem balanced_claimants : Run.Balanced next (fun _ => false) hasClaimed claims := by
  intro fired answer l k q h
  obtain ⟨hm, hspawned⟩ := moves_of_next h
  rw [hspawned, List.countP_false, Function.const_apply, Nat.zero_add]
  generalize q.shared = l' at hm ⊢
  generalize q.self = k' at hm ⊢
  generalize q.events = marks at hm
  cases hm with
  | claim hflag => simp [claims, LifecycleCall.hasClaimed, hflag]
  | finish =>
    have hk : hasClaimed (.shuttingDown .cancelling none) = true := rfl
    simp [hk, hasClaimed_won, claims_cancel]
  | @run b =>
    have hk : hasClaimed (.running b) = true := rfl
    simp [hk, hasClaimed_won]
  | _ => simp [LifecycleCall.hasClaimed, claims_advance, claims_cancel]

theorem Fresh.hasClaimed (h : k.Fresh) : k.hasClaimed = false := by
  cases h <;> rfl

end

end LifecycleCall

/-- executions at one new lifecycle with any calls -/
abbrev Lifecycles :=
  Execution LifecycleCall.next (fun _ k => k.Fresh) fun l => ∃ generation, l = .ofGeneration generation

namespace Execution

open LifecycleCall (GoesOn Stands won)

variable {E : Lifecycles} {t u m s i j : Nat} {k : LifecycleCall} {fired : Bool}
  {answer : Answering} {q : Progress Lifecycle LifecycleCall} {target previous : Phase}
  {b b' : ShutdownBody}

theorem moves_of_lifecycle (h : E.Moves t i k fired answer q) :
    LifecycleCall.Moves (E.cells t) k (E.cells (t + 1)) q.self q.events := by
  rw [h.cells_succ]
  exact (LifecycleCall.moves_of_next h.leads).1

theorem goesOn (E : Lifecycles) (htu : t ≤ u) : GoesOn (E.cells t) (E.cells u) := by
  induction u, htu using Nat.le_induction with
  | base => exact ⟨id, id⟩
  | succ u _ ih =>
    obtain h | ⟨i, k, fired, answer, q, hm⟩ := cells_succ (E := E) u
    · exact h ▸ ih
    · have hstep := (moves_of_lifecycle hm).goesOn
      exact ⟨hstep.flag ∘ ih.flag, hstep.token ∘ ih.token⟩

theorem kept_calls : Kept LifecycleCall.next (fun _ k => k.Fresh) fun l k₀ k =>
    k₀.Stands k ∧ k.Fits l where
  fresh hf := ⟨.fresh hf, by cases hf <;> trivial⟩
  spawned hq := (LifecycleCall.moves_of_next hq).2
  self hq h := by
    have hm := (LifecycleCall.moves_of_next hq).1
    exact ⟨hm.stands h.1, hm.fits h.2⟩
  others hq h := ⟨h.1, h.2.still (LifecycleCall.moves_of_next hq).1.goesOn⟩

theorem stands_of_entry {k₀ : LifecycleCall} (he : E.Enters s i k₀) (h : E.proc? t i = some k) :
    k₀.Stands k := (kept_calls.of_enters he h).1

theorem fits_cells (h : E.proc? t i = some k) : k.Fits (E.cells t) := by
  obtain ⟨_, _, _, _, _, hfits⟩ := kept_calls.exists_entry h
  exact hfits

/-! ## the phase -/

/-- an advance moves, and will answer a phase -/
def Advances (E : Lifecycles) (m i : Nat) (target previous : Phase) : Prop :=
  ∃ fired answer q, E.Moves m i (.advancing target) fired answer q ∧ q.self = .advanced previous

theorem Advances.phase (h : E.Advances m i target previous) :
    previous = (E.cells m).phase ∧ (E.cells (m + 1)).phase = previous.later target := by
  obtain ⟨_, _, q, hm, hself⟩ := h
  have hmove := moves_of_lifecycle hm
  rw [hself] at hmove
  generalize E.cells (m + 1) = l' at hmove ⊢
  generalize q.events = marks at hmove
  cases hmove with
  | advance => exact ⟨rfl, rfl⟩

theorem phase_succ (E : Lifecycles) (t : Nat) : (E.cells (t + 1)).phase = (E.cells t).phase ∨
    ∃ i target, E.Advances t i target (E.cells t).phase := by
  obtain h | ⟨i, k, fired, answer, q, hm⟩ := cells_succ (E := E) t
  · exact .inl (h ▸ rfl)
  · have hmove := moves_of_lifecycle hm
    generalize E.cells (t + 1) = l' at hmove ⊢
    generalize hq : q.self = k' at hmove
    generalize q.events = marks at hmove
    cases hmove with
    | advance => exact .inr ⟨i, _, fired, answer, q, hm, hq⟩
    | _ => exact .inl rfl

theorem phase_le (E : Lifecycles) (htu : t ≤ u) : (E.cells t).phase ≤ (E.cells u).phase := by
  induction u, htu using Nat.le_induction with
  | base => exact Nat.le_refl _
  | succ u _ ih =>
    obtain h | ⟨i, target, h⟩ := E.phase_succ u
    · exact h ▸ ih
    · rw [h.phase.2]
      exact Phase.le_trans ih (Phase.le_later _ _)

/-- the phases that a lifecycle was told before a moment -/
def told (E : Lifecycles) (t : Nat) : Set Phase :=
  {p | p = .created ∨ ∃ m i previous, m < t ∧ E.Advances m i p previous}

/-- **The phase is the latest one advanced to.** -/
theorem isGreatest_phase (E : Lifecycles) (t : Nat) : IsGreatest (E.told t) (E.cells t).phase := by
  constructor
  · induction t with
    | zero =>
      obtain ⟨_, h⟩ := E.isInitial
      exact .inl (congrArg Lifecycle.phase h)
    | succ t ih =>
      have hbefore : (E.cells t).phase ∈ E.told (t + 1) :=
        ih.imp id fun ⟨m, i, previous, hm, h⟩ => ⟨m, i, previous, Nat.lt_succ_of_lt hm, h⟩
      obtain h | ⟨i, target, h⟩ := E.phase_succ t
      · exact h ▸ hbefore
      · rw [h.phase.2]
        obtain hsame | hnew := Phase.later_eq (E.cells t).phase target
        · rw [hsame]
          exact hbefore
        · rw [hnew]
          exact .inr ⟨t, i, _, Nat.lt_succ_self t, h⟩
  · rintro p (rfl | ⟨m, i, previous, hm, h⟩)
    · exact Nat.zero_le _
    · have hle : p ≤ (E.cells (m + 1)).phase := h.phase.2 ▸ Phase.le_later_right _ _
      exact Phase.le_trans hle (E.phase_le hm)

/-! ## the claim -/

def Claimant (E : Lifecycles) (t i : Nat) : Prop :=
  ∃ k, E.proc? t i = some k ∧ k.hasClaimed = true

theorem countP_claimants (E : Lifecycles) (t : Nat) :
    (E.run t).procs.countP LifecycleCall.hasClaimed + LifecycleCall.claims (E.cells t) = 1 := by
  have h := (E.reachable t).balance (n := 1) (fun l hl => by obtain ⟨_, rfl⟩ := hl; rfl)
    (fun _ _ hk => hk.hasClaimed) LifecycleCall.balanced_claimants
  rw [List.countP_false] at h
  simpa [Execution.cells] using h

theorem Claimant.mono (h : E.Claimant t i) (htu : t ≤ u) : E.Claimant u i := by
  induction u, htu using Nat.le_induction with
  | base => exact h
  | succ u _ ih =>
    obtain ⟨k, hk, hclaimed⟩ := ih
    obtain h' | ⟨fired, answer, q, hm⟩ := proc_succ hk
    · exact ⟨k, h', hclaimed⟩
    · exact ⟨q.self, hm.self_succ, (moves_of_lifecycle hm).hasClaimed hclaimed⟩

theorem Claimant.unique (h : E.Claimant t i) (h' : E.Claimant u j) : i = j := by
  obtain ⟨k, hk, hclaimed⟩ := h.mono (Nat.le_max_left t u)
  obtain ⟨k', hk', hclaimed'⟩ := h'.mono (Nat.le_max_right t u)
  have hsum := E.countP_claimants (max t u)
  exact unique_of_countP_le (p := LifecycleCall.hasClaimed) (by omega) hk hk' hclaimed hclaimed'

theorem Claimant.flag (h : E.Claimant t i) : (E.cells t).shutdownPerformed = true := by
  obtain ⟨k, hk, hclaimed⟩ := h
  have hpos : 0 < (E.run t).procs.countP LifecycleCall.hasClaimed :=
    List.countP_pos_iff.mpr ⟨k, List.mem_of_getElem? hk, hclaimed⟩
  have hsum := E.countP_claimants t
  by_contra hflag
  have hone : LifecycleCall.claims (E.cells t) = 1 := if_neg hflag
  omega

theorem exists_claimant (h : (E.cells t).shutdownPerformed = true) : ∃ i, E.Claimant t i := by
  have hsum := E.countP_claimants t
  have hzero : LifecycleCall.claims (E.cells t) = 0 := if_pos h
  obtain ⟨k, hmem, hclaimed⟩ := List.countP_pos_iff.mp
    (show 0 < (E.run t).procs.countP LifecycleCall.hasClaimed by omega)
  obtain ⟨i, hi⟩ := List.getElem?_of_mem hmem
  exact ⟨i, k, hi, hclaimed⟩

theorem Claimant.exists_entry (h : E.Claimant t j) :
    ∃ s body, E.Enters s j (.shuttingDown .claiming body) := by
  obtain ⟨k, hk, hclaimed⟩ := h
  obtain ⟨s, k₀, _, he, hstands, _⟩ := kept_calls.exists_entry hk
  cases hstands with
  | claimed | running | finished => exact ⟨s, _, he⟩
  | fresh hf =>
    rw [hf.hasClaimed] at hclaimed
    cases hclaimed
  | advanced | refused | looked | cancelled => cases hclaimed

theorem Claimant.won_of_over {body : Option ShutdownBody} (h : E.Claimant t j)
    (he : E.Enters s j (.shuttingDown .claiming body)) (hk : E.proc? u j = some k)
    (hover : k.Over) : k = won body := by
  obtain ⟨k', hk', hclaimed⟩ := h.mono (Nat.le_max_left t u)
  have hstays := stays_of_blocked hover hk (Nat.le_max_right t u)
  obtain rfl := Option.some.inj (hstays.symm.trans hk')
  obtain rfl | hwon := (stands_of_entry he hk).of_over hover
  · cases hclaimed
  · exact hwon

theorem Claimant.refused {body : Option ShutdownBody} (h : E.Claimant t j)
    (he : E.Enters s i (.shuttingDown .claiming body)) (hne : i ≠ j) (hk : E.proc? u i = some k)
    (hover : k.Over) : k = .ended false := by
  obtain hrefused | rfl := (stands_of_entry he hk).of_over hover
  · exact hrefused
  · exact absurd (Claimant.unique ⟨_, hk, LifecycleCall.hasClaimed_won body⟩ h) hne

theorem Fair.lifecycle_call_ends (hfair : E.Fair) (h : E.Enters s i k) :
    ∃ u k', s < u ∧ E.proc? u i = some k' ∧ k'.Over := by
  obtain ⟨u, k', hsu, hp, hdone⟩ := hfair.exists_done LifecycleCall.ahead
    (fun _ => LifecycleCall.isSome_next) (fun _ _ _ _ _ _ hm => (moves_of_lifecycle hm).ahead) h
  exact ⟨u, k', hsu, hp, LifecycleCall.over_of_ahead hdone⟩

/-! ## bodies -/

def RunsBody (E : Lifecycles) (m i : Nat) (b : ShutdownBody) : Prop :=
  ∃ fired answer q, E.Moves m i (.running b) fired answer q

theorem RunsBody.claimant (h : E.RunsBody m i b) : E.Claimant m i := by
  obtain ⟨_, _, _, hm⟩ := h
  exact ⟨_, hm.proc, rfl⟩

theorem RunsBody.le (h : E.RunsBody m i b) (h' : E.RunsBody u i b') : u ≤ m := by
  by_contra hlt
  obtain ⟨_, _, q, hm⟩ := h
  obtain ⟨_, _, _, hm'⟩ := h'
  have hmove := moves_of_lifecycle hm
  generalize E.cells (m + 1) = l' at hmove
  generalize hq : q.self = k' at hmove
  generalize q.events = marks at hmove
  cases hmove with
  | run =>
    have hstays := stays_of_blocked (LifecycleCall.over_won _) (hq ▸ hm.self_succ) (Nat.lt_of_not_le hlt)
    have hsame := Option.some.inj (hm'.proc.symm.trans hstays)
    exact absurd hsame (LifecycleCall.ne_won Nat.one_ne_zero)

/-- **At most one body runs, and once.** -/
theorem RunsBody.unique (h : E.RunsBody m i b) (h' : E.RunsBody u j b') :
    m = u ∧ i = j ∧ b = b' := by
  obtain rfl := h.claimant.unique h'.claimant
  obtain rfl := Nat.le_antisymm (h'.le h) (h.le h')
  obtain ⟨_, _, _, hm⟩ := h
  obtain ⟨_, _, _, hm'⟩ := h'
  have hsame := hm.proc.symm.trans hm'.proc
  cases hsame
  exact ⟨rfl, rfl, rfl⟩

theorem countP_bodies_le (E : Lifecycles) (t : Nat) : (E.run t).trace.countP Event.isBody ≤ 1 := by
  induction t with
  | zero => exact Nat.zero_le 1
  | succ t ih =>
    obtain h | ⟨p, _, _, h⟩ | ⟨i, k, fired, answer, q, hm⟩ := tick (E := E) t
    · exact h ▸ ih
    · rw [h]
      exact ih
    · rw [hm.run, Run.trace_commit, List.countP_append]
      obtain hnone | ⟨b, rfl, hb⟩ := (moves_of_lifecycle hm).events
      · rw [hnone]
        exact ih
      · -- a body that had run before would be this one
        have hbefore : (E.run t).trace.countP Event.isBody = 0 := by
          refine List.countP_eq_zero.mpr fun e he hbody => ?_
          obtain ⟨u, j, k', fired', answer', q', hut, hm', he'⟩ := exists_move_of_event he
          obtain hnone | ⟨b', rfl, _⟩ := (moves_of_lifecycle hm').events
          · rw [hnone] at he'
            cases he'
          · have hruns : E.RunsBody t i b := ⟨fired, answer, q, hm⟩
            exact Nat.ne_of_gt hut (hruns.unique ⟨fired', answer', q', hm'⟩).1
        rw [hbefore, hb]
        exact Nat.le_refl 1

/-! ## the token -/

/-- **If nobody cancels the token directly**, the flag is set before the token is cancelled. -/
theorem flag_before_token (hnone : ∀ s i, ¬ E.Enters s i (.cancelling false))
    (h : (E.cells t).isCancelled = true) : ∃ m, m < t ∧ (E.cells m).shutdownPerformed = true := by
  induction t with
  | zero =>
    obtain ⟨_, hinit⟩ := E.isInitial
    rw [show E.cells 0 = _ from hinit] at h
    cases h
  | succ t ih =>
    have hbefore (h : (E.cells t).isCancelled = true) :
        ∃ m, m < t + 1 ∧ (E.cells m).shutdownPerformed = true := by
      obtain ⟨m, hm, hflag⟩ := ih h
      exact ⟨m, Nat.lt_succ_of_lt hm, hflag⟩
    obtain hsame | ⟨i, k, fired, answer, q, hm⟩ := cells_succ (E := E) t
    · exact hbefore (hsame ▸ h)
    · have hclaimed (hk : k.hasClaimed = true) :
          ∃ m, m < t + 1 ∧ (E.cells m).shutdownPerformed = true :=
        ⟨t, Nat.lt_succ_self t, Claimant.flag ⟨k, hm.proc, hk⟩⟩
      have hmove := moves_of_lifecycle hm
      generalize E.cells (t + 1) = l' at hmove h
      generalize q.self = k' at hmove
      generalize q.events = marks at hmove
      cases hmove with
      | finish | begin => exact hclaimed rfl
      | cancel =>
        obtain ⟨s, k₀, _, he, hstands, _⟩ := kept_calls.exists_entry hm.proc
        cases hstands with
        | looked => exact absurd he (hnone s i)
        | fresh hf => cases hf
        | finished hw => exact absurd hw (LifecycleCall.ne_won Nat.one_ne_zero)
      | _ => exact hbefore h

end Execution

/-- what callers of a lifecycle rely on -/
structure Lifecycles.Guarded (E : Lifecycles) : Prop where
  /-- the phase is the latest of those that the lifecycle was told before -/
  phase (t : Nat) : IsGreatest (E.told t) (E.cells t).phase
  /-- an advance answers the phase just before it -/
  previous {m i : Nat} {target previous : Phase} : E.Advances m i target previous →
    previous = (E.cells m).phase ∧ (E.cells (m + 1)).phase = previous.later target
  /-- every answer of an advance is from its move -/
  advanced {s u i : Nat} {target previous : Phase} : E.Enters s i (.advancing target) →
    E.proc? u i = some (.advanced previous) → ∃ m, s < m ∧ m < u ∧ E.Advances m i target previous
  /-- at most one call returns true -/
  once {t u i j : Nat} : E.proc? t i = some (.ended true) → E.proc? u j = some (.ended true) → i = j
  /-- when a shutdown has ended, then there is the one that wins; all others are refused, and it
  ends as a winner does, unless it is left alone for good -/
  winner {t i s : Nat} {body : Option ShutdownBody} {k : LifecycleCall} :
    E.Enters s i (.shuttingDown .claiming body) → E.proc? t i = some k → k.Over →
    ∃ j s' body', E.Claimant t j ∧ E.Enters s' j (.shuttingDown .claiming body') ∧
      (∀ u k', E.proc? u j = some k' → k'.Over → k' = .won body') ∧
      (E.Fair → ∃ u, E.proc? u j = some (.won body')) ∧
      ∀ u i' s'' body'' k', E.Enters s'' i' (.shuttingDown .claiming body'') → i' ≠ j →
        E.proc? u i' = some k' → k'.Over → k' = .ended false
  /-- at most one body runs, and once -/
  bodies (t : Nat) : (E.run t).trace.countP Event.isBody ≤ 1
  /-- a body runs when the shutdown is claimed and the token is cancelled -/
  body {m i : Nat} {b : ShutdownBody} : E.RunsBody m i b →
    (E.cells m).shutdownPerformed = true ∧ (E.cells m).isCancelled = true
  /-- the flag never goes back -/
  flag {t u : Nat} : (E.cells t).shutdownPerformed = true → t ≤ u →
    (E.cells u).shutdownPerformed = true
  /-- if nobody cancels the token directly, it is cancelled only after the flag was set -/
  cause {t : Nat} : (∀ s i, ¬ E.Enters s i (.cancelling false)) →
    (E.cells t).isCancelled = true → ∃ m, m < t ∧ (E.cells m).shutdownPerformed = true
  /-- the token is cancelled when the shutdown that wins has ended -/
  cancelled {t i : Nat} {body : Option ShutdownBody} :
    E.proc? t i = some (.won body) → (E.cells t).isCancelled = true
  /-- nobody but an advance changes the phase -/
  still {t i : Nat} {k : LifecycleCall} {fired : Bool} {answer : Answering}
    {q : Progress Lifecycle LifecycleCall} : E.Moves t i k fired answer q →
    (∀ target, k ≠ .advancing target) → (E.cells (t + 1)).phase = (E.cells t).phase
  /-- an advance changes nothing else -/
  apart {t i : Nat} {target : Phase} {fired : Bool} {answer : Answering}
    {q : Progress Lifecycle LifecycleCall} : E.Moves t i (.advancing target) fired answer q →
    (E.cells (t + 1)).shutdownPerformed = (E.cells t).shutdownPerformed ∧
      (E.cells (t + 1)).token = (E.cells t).token
  /-- a call ends unless it is left alone for good -/
  ends {s i : Nat} {k : LifecycleCall} : E.Fair → E.Enters s i k →
    ∃ u k', s < u ∧ E.proc? u i = some k' ∧ k'.Over

open Execution in
/-- **Whatever calls come in and however they interleave**, a lifecycle is guarded. -/
theorem Lifecycles.guarded (E : Lifecycles) : E.Guarded where
  phase := E.isGreatest_phase
  previous h := h.phase
  advanced {s u i target previous} he hp := by
    have hover (fired : Bool) (l : Lifecycle) (answer : Answering)
        (q : Progress Lifecycle LifecycleCall)
        (hq : (LifecycleCall.next fired l (.advancing target)).under answer = some q) :
        q.self.Over := by
      cases hq
      exact fun _ _ => rfl
    obtain ⟨v, fired, answer, q, hsv, hvu, hm, hself⟩ := he.exists_only_move hover hp nofun
    exact ⟨v, hsv, hvu, fired, answer, q, hm, hself⟩
  once hi hj := Claimant.unique ⟨_, hi, rfl⟩ ⟨_, hj, rfl⟩
  winner {t i s body k} he hk hover := by
    have hflag : (E.cells t).shutdownPerformed = true := by
      obtain rfl | rfl := (stands_of_entry he hk).of_over hover
      · exact fits_cells hk
      · exact Claimant.flag ⟨_, hk, LifecycleCall.hasClaimed_won body⟩
    obtain ⟨j, hj⟩ := exists_claimant hflag
    obtain ⟨s', body', he'⟩ := hj.exists_entry
    refine ⟨j, s', body', hj, he', fun u k' => hj.won_of_over he', fun hfair => ?_,
      fun u i' s'' body'' k' he'' hne => hj.refused he'' hne⟩
    obtain ⟨u, k', _, hk', hover'⟩ := hfair.lifecycle_call_ends he'
    exact ⟨u, hj.won_of_over he' hk' hover' ▸ hk'⟩
  bodies := E.countP_bodies_le
  body h := by
    have hflag := h.claimant.flag
    obtain ⟨_, _, _, hm⟩ := h
    exact ⟨hflag, fits_cells hm.proc⟩
  flag h htu := (E.goesOn htu).flag h
  cause := flag_before_token
  cancelled hp := LifecycleCall.fits_won_iff.mp (fits_cells hp)
  still hm hne := by
    obtain h | ⟨target, h, _⟩ := (moves_of_lifecycle hm).phase
    · exact h
    · exact absurd h (hne target)
  apart hm := by
    have hcells := hm.cells_succ
    have hq := hm.leads
    cases hq
    rw [hcells]
    exact ⟨rfl, rfl⟩
  ends := Fair.lifecycle_call_ends

/-- two shutdowns race, and the one with a body is refused; the phase moves under them -/
example :
    let go (i : Nat) : Cue LifecycleCall := .move i false (.granting [])
    (([.enter (.shuttingDown .claiming (some { tag := .text "body" })),
        .enter (.shuttingDown .claiming none), .enter (.advancing .initialized),
        .enter (.advancing .extensionsLoaded), go 1, go 2, go 0, go 1, go 3].foldl
      (Run.follow LifecycleCall.next) ⟨.ofGeneration 1, [], []⟩).procs)
      = [.ended false, .ended true, .advanced .created, .advanced .initialized] :=
  rfl

end IndexCoordinator
