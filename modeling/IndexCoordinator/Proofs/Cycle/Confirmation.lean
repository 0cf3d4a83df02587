import IndexCoordinator.Proofs.Cycle.Maintenance

/-!
# The promises of confirmations

Every promise of a confirmation that was ever current is kept in `confirmations`, and `slot` says
which one is current.  Who asks for a confirmation takes the current promise, or puts a new one in
its place if the current one was seen resolved.

* `Ensure.Moves`               one move of a caller that asks;
* `Work.Confirms`              what a move does to the promises and to the slot;
* `Cycle.Numbered`             promises are numbered up to the slot;
* `Work.Has`                   a process has a promise in its hand; it was in the slot
                               (`Execution.has_le`);
* `Execution.slot_succ`, `Execution.confirmed_of_lt`   the slot moves on only from a resolved
                               promise.
-/

namespace IndexCoordinator

/-! ## asking -/

namespace Cycle

/-- a promise of a confirmation is resolved -/
def Confirmed (c : Cycle) (k : Nat) : Prop := (c.confirmation k).slot.isSome = true

instance (c : Cycle) (k : Nat) : Decidable (c.Confirmed k) :=
  inferInstanceAs (Decidable ((c.confirmation k).slot.isSome = true))

def renew (c : Cycle) : Cycle :=
  { c with confirmations := c.confirmations ++ [{}], slot := c.confirmations.length }

end Cycle

namespace Ensure

inductive Moves (c : Cycle) : Ensure → Cycle → Turn Ensure Nat → Prop where
  | look : Moves c .looking c (.go (.swapping c.slot (c.confirmation c.slot).done))
  | retry {seen : Nat} {wasDone : Bool} : c.slot ≠ seen →
      Moves c (.swapping seen wasDone) c (.go .looking)
  | share : Moves c (.swapping c.slot false) c (.go (.spawning c.slot))
  | renew : Moves c (.swapping c.slot true) c.renew (.go (.spawning c.confirmations.length))
  | spawn (k : Nat) : Moves c (.spawning k) c (.stop k)

theorem moves_next (c : Cycle) (e : Ensure) : Moves c e (e.next c).1 (e.next c).2 := by
  cases e with
  | looking => exact .look
  | spawning k => exact .spawn k
  | swapping seen wasDone =>
    by_cases h : c.slot = seen
    · subst h
      cases wasDone with
      | true =>
        simp only [next, if_true]
        exact .renew
      | false =>
        simp only [next, if_true]
        exact .share
    · simp only [next, if_neg h]
      exact .retry h

theorem moves_of_next {c c' : Cycle} {e : Ensure} {t : Turn Ensure Nat} (h : e.next c = (c', t)) :
    Moves c e c' t := by
  have hm := moves_next c e
  rw [h] at hm
  exact hm

def promise? : Ensure → Option Nat
  | .looking => none
  | .swapping seen _ => some seen
  | .spawning k => some k

theorem Moves.slot {c c' : Cycle} {e e' : Ensure} {k : Nat} (h : Moves c e c' (.go e'))
    (hk : e'.promise? = some k) : k = c.slot ∨ k = c'.slot := by
  cases h with
  | look | share => exact .inl (Option.some.inj hk).symm
  | renew => exact .inr (Option.some.inj hk).symm
  | retry => cases hk

theorem Moves.of_spawning {c c' : Cycle} {k : Nat} {t : Turn Ensure Nat}
    (h : Moves c (.spawning k) c' t) : t = .stop k := by
  cases h with
  | spawn => rfl

theorem Moves.of_current {c c' : Cycle} {t : Turn Ensure Nat}
    (h : Moves c (.swapping c.slot true) c' t) : t = .go (.spawning c.confirmations.length) := by
  generalize hseen : c.slot = seen at h
  cases h with
  | retry hne => exact absurd hseen hne
  | renew => rfl

theorem Moves.taken {c c' : Cycle} {e : Ensure} {t : Turn Ensure Nat} (h : Moves c e c' t) {k : Nat}
    (ht : t = .go (.spawning k)) :
    c' = c ∧ k = c.slot ∨ c' = c.renew ∧ k = c.confirmations.length := by
  cases h with
  | share =>
    cases ht
    exact .inl ⟨rfl, rfl⟩
  | renew =>
    cases ht
    exact .inr ⟨rfl, rfl⟩
  | _ => cases ht

theorem Moves.seen {c c' : Cycle} {e : Ensure} {t : Turn Ensure Nat} (h : Moves c e c' t)
    {seen : Nat} {wasDone : Bool} (ht : t = .go (.swapping seen wasDone)) :
    seen = c.slot ∧ wasDone = (c.confirmation c.slot).done := by
  cases h with
  | look =>
    cases ht
    exact ⟨rfl, rfl⟩
  | _ => cases ht

end Ensure

namespace Work

def ensure? : Work → Option Ensure
  | .genesis (.confirming e) => some e
  | .call (.ensuring e) => some e
  | _ => none

/-- where a process goes on that asks for a confirmation, and what it starts -/
inductive Asked (w : Work) (q : Progress Cycle Work) : Turn Ensure Nat → Prop where
  | go {e : Ensure} : q.self.ensure? = some e → q.spawned = [] → Asked w q (.go e)
  | stop {k : Nat} : q.spawned = [.maintenance ⟨k, .waiting⟩] → Asked w q (.stop k)

theorem ensure?_of_wait {k : CycleCall} {p : Poll} (h : k.wait? = some p) :
    (call k).ensure? = none := by
  cases k with
  | ensuring => cases h
  | _ => rfl

section
variable {fired : Bool} {answer : Answering} {c c' : Cycle} {w : Work} {q : Progress Cycle Work}

theorem Moves.asked (h : Moves fired answer c w q) {e : Ensure} (hw : w.ensure? = some e) :
    ∃ t, Ensure.Moves c e q.shared t ∧ w.Asked q t := by
  cases h with
  | confirm hn | ensure hn =>
    cases hw
    exact ⟨_, Ensure.moves_of_next hn, .go rfl rfl⟩
  | confirmed hn | ensured hn =>
    cases hw
    exact ⟨_, Ensure.moves_of_next hn, .stop rfl⟩
  | wait hk | waited hk => cases hw.symm.trans (ensure?_of_wait hk)
  | @reject k hk =>
    cases k with
    | ensuring => obtain hk | hk := hk <;> cases hk
    | _ => cases hw
  | _ => cases hw

theorem Moves.asking (h : Moves fired answer c w q) {e' : Ensure}
    (hq : q.self.ensure? = some e') :
    e' = .looking ∨ ∃ e, w.ensure? = some e ∧ Ensure.Moves c e q.shared (.go e') := by
  cases h with
  | confirm hn | ensure hn =>
    cases hq
    exact .inr ⟨_, rfl, Ensure.moves_of_next hn⟩
  | @resolve o =>
    cases o <;> cases hq
    exact .inl rfl
  | listed =>
    unfold Genesis.afterListing at hq
    split at hq
    · split at hq <;> cases hq
    · cases hq
    · cases hq
  | opened =>
    unfold Genesis.afterOpening at hq
    split at hq <;> cases hq
  | mark hb | reset hb | remark hb => cases hb <;> cases hq
  | wait _ _ hk' => cases hq.symm.trans (ensure?_of_wait hk')
  | waited =>
    unfold CycleCall.afterWait at hq
    split at hq
    · cases hq
    · split at hq <;> cases hq
    · cases hq
  | _ => cases hq

/-! ## what a move does to the promises -/

/-- what a move does to the promises of confirmations and to the slot -/
inductive Confirms (w : Work) (c c' : Cycle) : Prop where
  | none : c'.confirmations = c.confirmations → c'.slot = c.slot → Confirms w c c'
  | renew : w.ensure? = some (.swapping c.slot true) → c' = c.renew → Confirms w c c'
  | confirm {m : Maintenance} {how : MaintenanceEnd} : w = .maintenance m →
      m.stage = .confirming how → c' = c.resolveConfirmation m.promise → Confirms w c c'

theorem Confirms.of_ensure {e : Ensure} {t : Turn Ensure Nat} (hw : w.ensure? = some e)
    (h : Ensure.Moves c e c' t) : w.Confirms c c' := by
  cases h with
  | renew => exact .renew hw rfl
  | _ => exact .none rfl rfl

theorem Confirms.of_maintenance {m : Maintenance} {p : Progress Cycle Maintenance}
    (h : Maintenance.Moves answer c m p) : (maintenance m).Confirms c p.shared := by
  cases h with
  | confirm hst => exact .confirm rfl hst rfl
  | _ => exact .none rfl rfl

theorem Confirms.of_submission {s : Submission} {t : Turn Submission Bool}
    (h : s.next c = (c', t)) : w.Confirms c c' := by
  cases s with
  | claiming =>
    cases hb : c.buildSubmitted <;> simp only [Submission.next, hb] at h <;> cases h <;>
      exact .none rfl rfl
  | advancing | spawning =>
    cases h
    exact .none rfl rfl

theorem Moves.confirms (h : Moves fired answer c w q) : w.Confirms c q.shared := by
  cases h with
  | confirm hn | confirmed hn | ensure hn | ensured hn =>
    exact .of_ensure rfl (Ensure.moves_of_next hn)
  | maintain hp => exact .of_maintenance (Maintenance.moves_of_next hp)
  | mark hb | reset hb | remark hb => cases hb <;> exact .none rfl rfl
  | submit hs | submitted hs => exact .of_submission hs
  | wait _ hp | waited _ hp => cases hp <;> exact .none rfl rfl
  | _ => exact .none rfl rfl

end

end Work

/-! ## the promises -/

namespace Cycle

/-- the promises that were made are those up to the slot, and each of them is marked done exactly
if it is resolved -/
structure Numbered (c : Cycle) : Prop where
  length : c.confirmations.length = c.slot + 1
  done : ∀ k, (c.confirmation k).done = (c.confirmation k).slot.isSome

section
variable {c c' : Cycle} {w : Work} {k : Nat}

theorem confirmation_renew (c : Cycle) (k : Nat) : c.renew.confirmation k = c.confirmation k := by
  simp only [confirmation, renew, List.getD_eq_getElem?_getD]
  by_cases h : k < c.confirmations.length
  · rw [List.getElem?_append_left h]
  · rw [List.getElem?_append_right (Nat.le_of_not_lt h), List.getElem?_eq_none (Nat.le_of_not_lt h)]
    cases k - c.confirmations.length <;> rfl

theorem confirmation_resolve (c : Cycle) (j k : Nat) :
    (c.resolveConfirmation j).confirmation k =
      if j = k ∧ k < c.confirmations.length then (c.confirmation k).resolve ()
      else c.confirmation k := by
  simp only [confirmation, resolveConfirmation, List.getD_eq_getElem?_getD, List.getElem?_modify]
  by_cases h : k < c.confirmations.length
  · simp only [List.getElem?_eq_getElem h, h, and_true]
    split <;> rfl
  · simp [h]

theorem Numbered.of_le (h : c.Numbered) (hk : k ≤ c.slot) : k < c.confirmations.length := by
  rw [h.length]
  exact Nat.lt_succ_of_le hk

theorem confirmed_resolve (h : k < c.confirmations.length) :
    (c.resolveConfirmation k).Confirmed k := by
  unfold Confirmed
  rw [confirmation_resolve, if_pos ⟨rfl, h⟩, Promise.slot_resolve]
  rfl

theorem Numbered.renew (h : c.Numbered) : c.renew.Numbered where
  length := by simp [Cycle.renew]
  done k := by
    rw [confirmation_renew]
    exact h.done k

theorem Numbered.resolve (h : c.Numbered) (j : Nat) : (c.resolveConfirmation j).Numbered where
  length := by simpa [resolveConfirmation] using h.length
  done k := by
    rw [confirmation_resolve]
    split
    · unfold Promise.resolve
      split
      · exact h.done k
      · rfl
    · exact h.done k

end

end Cycle

namespace Work

variable {w : Work} {c c' : Cycle} {k : Nat}

theorem Confirms.numbered (h : w.Confirms c c') (hc : c.Numbered) : c'.Numbered := by
  cases h with
  | none hconf hslot =>
    have hsame (k : Nat) : c'.confirmation k = c.confirmation k := by
      simp only [Cycle.confirmation, hconf]
    exact ⟨by rw [hconf, hslot]; exact hc.length, fun k => by rw [hsame]; exact hc.done k⟩
  | renew _ he => exact he ▸ hc.renew
  | confirm _ _ he => exact he ▸ hc.resolve _

theorem Confirms.slot (h : w.Confirms c c') (hc : c.Numbered) :
    c'.slot = c.slot ∨ c'.slot = c.slot + 1 ∧ w.ensure? = some (.swapping c.slot true) := by
  cases h with
  | none _ hslot => exact .inl hslot
  | renew hw he => exact .inr ⟨he ▸ hc.length, hw⟩
  | confirm _ _ he => exact .inl (he ▸ rfl)

theorem Confirms.confirmed (h : w.Confirms c c') (hk : c.Confirmed k) : c'.Confirmed k := by
  unfold Cycle.Confirmed at hk ⊢
  cases h with
  | none hconf =>
    rw [Cycle.confirmation, hconf]
    exact hk
  | renew _ he =>
    rw [he, Cycle.confirmation_renew]
    exact hk
  | confirm _ _ he =>
    rw [he, Cycle.confirmation_resolve]
    split
    · rw [Promise.slot_resolve]
      rfl
    · exact hk

/-- a process has the promise of a confirmation in its hand -/
inductive Has (k : Nat) : Work → Prop where
  | asked {w : Work} {e : Ensure} : w.ensure? = some e → e.promise? = some k → Has k w
  | task (stage : MaintenanceStage) : Has k (.maintenance ⟨k, stage⟩)
  | waiter : Has k (.call (.awaitingAll (.parked k)))

theorem not_has_of_fresh {k' : CycleCall} (h : k'.Fresh) : ¬ (call k').Has k := by
  intro hk
  cases hk with
  | asked he hk =>
    cases h with
    | ensure =>
      cases he
      cases hk
    | _ => cases he
  | waiter => cases h

section
variable {fired : Bool} {answer : Answering} {q : Progress Cycle Work}

theorem Moves.parked (h : Moves fired answer c w q)
    (hq : q.self = .call (.awaitingAll (.parked k))) : k = c.slot := by
  cases h with
  | loadSlot =>
    cases hq
    rfl
  | wait _ _ hk =>
    cases hq
    cases hk
  | waited =>
    unfold CycleCall.afterWait at hq
    split at hq
    · cases hq
    · split at hq <;> cases hq
    · cases hq
  | reset hb | remark hb => cases hb <;> cases hq
  | _ => cases hq

theorem promise_of_maintenance {m : Maintenance} {p : Progress Cycle Maintenance}
    (h : Maintenance.Moves answer c m p) : p.self.promise = m.promise := by
  cases h <;> rfl

theorem has_of_next (h : (w.next fired c).under answer = some q) (hq : q.self.Has k) :
    w.Has k ∨ k = c.slot ∨ k = q.shared.slot := by
  generalize hself : q.self = w' at hq
  cases hq with
  | asked he hk =>
    obtain rfl | ⟨e₀, _, hm⟩ := (moves_of_next h).asking (hself ▸ he)
    · cases hk
    · exact .inr (hm.slot hk)
  | task stage =>
    obtain ⟨m, rfl⟩ := (of_next h).2.maintenance hself
    cases moves_of_next h with
    | maintain hp =>
      have hsame := promise_of_maintenance (Maintenance.moves_of_next hp)
      rw [Work.maintenance.inj hself] at hsame
      obtain rfl : k = m.promise := hsame
      exact .inl (.task m.stage)
  | waiter => exact .inr (.inl ((moves_of_next h).parked hself))

theorem has_of_spawned (h : (w.next fired c).under answer = some q) {x : Work}
    (hx : x ∈ q.spawned) (hk : x.Has k) : w.ensure? = some (.spawning k) := by
  have ho := (of_next h).2
  generalize q.self = w' at ho
  generalize q.spawned = l at ho hx
  cases ho with
  | built | ensured =>
    cases List.mem_singleton.mp hx
    cases hk with
    | asked he => cases he
    | task => rfl
  | submitted =>
    cases List.mem_singleton.mp hx
    cases hk with
    | asked he => cases he
  | _ => cases hx

end

end Work

/-! ## every moment -/

namespace Execution

variable {E : Builds} {t u i k : Nat} {w : Work}

theorem numbered (t : Nat) : (E.cells t).Numbered := by
  induction t with
  | zero =>
    obtain ⟨settings, generation, hcells⟩ := cells_zero (E := E)
    rw [hcells]
    refine ⟨rfl, fun k => ?_⟩
    cases k <;> rfl
  | succ t ih =>
    obtain he | ⟨i, w, fired, answer, q, hm⟩ := cells_succ (E := E) t
    · rw [he]
      exact ih
    · rw [hm.cells_succ]
      exact hm.work.confirms.numbered ih

theorem slot_mono (htu : t ≤ u) : (E.cells t).slot ≤ (E.cells u).slot := by
  induction u, htu using Nat.le_induction with
  | base => exact Nat.le_refl _
  | succ u _ ih =>
    refine Nat.le_trans ih ?_
    obtain he | ⟨i, w, fired, answer, q, hm⟩ := cells_succ (E := E) u
    · exact Nat.le_of_eq (congrArg Cycle.slot he.symm)
    · rw [hm.cells_succ]
      obtain h | ⟨h, _⟩ := hm.work.confirms.slot (numbered u) <;> omega

theorem confirmed_stays (h : (E.cells t).Confirmed k) (htu : t ≤ u) : (E.cells u).Confirmed k := by
  induction u, htu using Nat.le_induction with
  | base => exact h
  | succ u _ ih =>
    obtain he | ⟨i, w, fired, answer, q, hm⟩ := cells_succ (E := E) u
    · rw [he]
      exact ih
    · rw [hm.cells_succ]
      exact hm.work.confirms.confirmed ih

theorem has_le (h : E.proc? t i = some w) (hk : w.Has k) : k ≤ (E.cells t).slot := by
  induction t generalizing w i with
  | zero => cases h
  | succ t ih =>
    have hle := slot_mono (E := E) (Nat.le_succ t)
    obtain h' | ⟨w₀, fired, answer, q, hm, rfl⟩ | ⟨_, k', hfresh, rfl⟩ |
      ⟨j, w₀, fired, answer, q, hm, hx, _⟩ := proc_of_succ h
    · exact Nat.le_trans (ih h' hk) hle
    · obtain hk | rfl | rfl := Work.has_of_next hm.leads hk
      · exact Nat.le_trans (ih hm.proc hk) hle
      · exact hle
      · exact Nat.le_of_eq (congrArg Cycle.slot hm.cells_succ.symm)
    · exact absurd hk (Work.not_has_of_fresh hfresh)
    · have hk₀ : w₀.Has k := .asked (Work.has_of_spawned hm.leads hx hk) rfl
      exact Nat.le_trans (ih hm.proc hk₀) hle

theorem confirmed_of_swapping (h : E.proc? t i = some w)
    (hw : w.ensure? = some (.swapping k true)) : (E.cells t).Confirmed k := by
  induction t generalizing w i with
  | zero => cases h
  | succ t ih =>
    have hle := Nat.le_succ t
    obtain h' | ⟨w₀, fired, answer, q, hm, rfl⟩ | ⟨_, k', hfresh, rfl⟩ |
      ⟨j, w₀, fired, answer, q, hm, hx, _⟩ := proc_of_succ h
    · exact confirmed_stays (ih h' hw) hle
    · obtain hl | ⟨e, _, hmove⟩ := hm.work.asking hw
      · cases hl
      · obtain ⟨rfl, hdone⟩ := hmove.seen rfl
        refine confirmed_stays ?_ hle
        rw [Cycle.Confirmed, ← (numbered t).done, ← hdone]
    · cases hfresh <;> cases hw
    · obtain hx | ⟨n, hx⟩ := (Work.of_next hm.leads).2.spawned _ hx <;> subst hx <;> cases hw

theorem task_of_succ {m : Maintenance} (h : E.proc? (t + 1) i = some (.maintenance m)) :
    E.proc? t i = some (.maintenance m) ∨
    (∃ m₀ fired answer p, E.Moves t i (.maintenance m₀) fired answer (p.map id .maintenance) ∧
      Maintenance.Moves answer (E.cells t) m₀ p ∧ p.self = m) ∨
    m.stage = .waiting := by
  obtain h' | ⟨w, fired, answer, q, hm, hq⟩ | ⟨_, k, _, hw⟩ |
    ⟨j, w, fired, answer, q, hm, hx, _⟩ := proc_of_succ h
  · exact .inl h'
  · obtain ⟨m₀, rfl⟩ := (Work.of_next hm.leads).2.maintenance hq
    have hwork := hm.work
    cases hwork with
    | @maintain _ p hp =>
      exact .inr (.inl ⟨m₀, fired, answer, p, hm, Maintenance.moves_of_next hp,
        Work.maintenance.inj hq⟩)
  · cases hw
  · obtain hx | ⟨n, hx⟩ := (Work.of_next hm.leads).2.spawned _ hx <;> cases hx
    exact .inr (.inr rfl)

theorem slot_succ (t : Nat) :
    (E.cells (t + 1)).slot = (E.cells t).slot ∨
      (E.cells (t + 1)).slot = (E.cells t).slot + 1 ∧ (E.cells t).Confirmed (E.cells t).slot := by
  obtain he | ⟨i, w, fired, answer, q, hm⟩ := cells_succ (E := E) t
  · exact .inl (congrArg Cycle.slot he)
  · rw [hm.cells_succ]
    obtain h | ⟨h, hw⟩ := hm.work.confirms.slot (numbered t)
    · exact .inl h
    · exact .inr ⟨h, confirmed_of_swapping hm.proc hw⟩

/-- **Only the current promise can be unresolved.** -/
theorem confirmed_of_lt (h : k < (E.cells t).slot) : (E.cells t).Confirmed k := by
  induction t with
  | zero =>
    obtain ⟨settings, generation, hcells⟩ := cells_zero (E := E)
    rw [hcells] at h
    cases h
  | succ t ih =>
    refine confirmed_stays ?_ (Nat.le_succ t)
    obtain hs | ⟨hs, hdone⟩ := slot_succ (E := E) t
    · exact ih (hs ▸ h)
    · obtain hlt | rfl := Nat.lt_succ_iff_lt_or_eq.mp (hs ▸ h)
      · exact ih hlt
      · exact hdone

theorem exists_slot (h : k ≤ (E.cells t).slot) : ∃ u, u ≤ t ∧ (E.cells u).slot = k := by
  induction t with
  | zero =>
    obtain ⟨settings, generation, hcells⟩ := cells_zero (E := E)
    have hzero : (E.cells 0).slot = 0 := by rw [hcells]; rfl
    exact ⟨0, Nat.le_refl 0, by omega⟩
  | succ t ih =>
    by_cases hk : k ≤ (E.cells t).slot
    · obtain ⟨u, hu, hslot⟩ := ih hk
      exact ⟨u, Nat.le_succ_of_le hu, hslot⟩
    · obtain hs | ⟨hs, _⟩ := slot_succ (E := E) t
      · omega
      · exact ⟨t + 1, Nat.le_refl _, by omega⟩

end Execution

end IndexCoordinator
