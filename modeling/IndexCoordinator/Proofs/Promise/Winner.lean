import IndexCoordinator.Proofs.Balance
import IndexCoordinator.Proofs.Fairness
import IndexCoordinator.Proofs.Promise.Visits
import IndexCoordinator.Proofs.Silence

/-!
# The call that resolves a promise

Of all calls that come in to resolve a promise one fills the slot, and its value is all that anyone
sees.  It raises the flag and gives the lock back without waiting for anyone; so the lock is held
for good by nobody, and who comes in after the flag was seen raised is answered with the value.

* `Meeting.Won`          the winner, from the moment it filled the slot;
* `Meeting.Won.unique`   there is only one;
* `Meeting.tells`        what a call has seen is still so;
* `Meeting.exists_free`  in a fair execution the lock of a filled slot is free from some moment on;
* `Meeting.Reliable`     what callers rely on.
-/

namespace IndexCoordinator.Meeting

variable {α : Type}

/-! ## the winner -/

/-- how many calls can still fill the slot -/
def vacancies (m : Meeting α) : Nat := if m.promise.slot.isNone then 1 else 0

theorem balanced_winners :
    Run.Balanced (next (α := α)) (fun _ => false) Visit.hasWon vacancies := by
  intro fired answer m v q h
  obtain ⟨hm, hspawned, hevents⟩ := moves_of_next h
  rw [hspawned, hevents]
  generalize q.shared = m' at hm ⊢
  generalize q.self = v' at hm ⊢
  cases hm with
  | store _ hs => simp [vacancies, Promise.store, Visit.hasWon, hs]
  | look hl => simp [hl.hasWon]
  | _ => simp [vacancies, Promise.raise, Visit.hasWon]

variable {E : Meetings α} {t u i j : Nat} {a b : α}

theorem countP_winners (t : Nat) :
    (E.run t).procs.countP Visit.hasWon + (E.cells t).vacancies = 1 := by
  have hfresh (m : Meeting α) (v : Visit α) (hv : v.Fresh) : v.hasWon = false := by
    cases hv with
    | wait hw => cases hw <;> rfl
    | _ => rfl
  have h := (E.reachable t).balance (n := 1) (fun m hm => by rw [hm]; rfl) hfresh balanced_winners
  rw [List.countP_false] at h
  simpa [Execution.cells] using h

theorem one_winner {v v' : Visit α} (hi : E.proc? t i = some v) (hj : E.proc? t j = some v')
    (hv : v.hasWon = true) (hv' : v'.hasWon = true) : i = j := by
  have h := countP_winners (E := E) t
  exact unique_of_countP_le (by omega) hi hj hv hv'

theorem Moves.hasWon {fired : Bool} {m m' : Meeting α} {v v' : Visit α}
    (h : Moves fired m v m' v') (hv : v.hasWon = true) : v'.hasWon = true := by
  cases h with
  | look hl =>
    rw [hl.hasWon.1] at hv
    cases hv
  | _ => rfl

/-- a call that came in with a value has filled the slot -/
def Won (E : Meetings α) (t i : Nat) (a : α) : Prop :=
  (∃ e, E.Enters e i (.resolving a)) ∧ ∃ v, E.proc? t i = some v ∧ v.hasWon = true

theorem Won.mono (h : Won E t i a) (htu : t ≤ u) : Won E u i a := by
  refine ⟨h.1, ?_⟩
  induction u, htu using Nat.le_induction with
  | base => exact h.2
  | succ u _ ih =>
    obtain ⟨v, hv, hw⟩ := ih
    obtain h' | ⟨fired, answer, q, hm⟩ := Execution.proc_succ hv
    · exact ⟨v, h', hw⟩
    · exact ⟨q.self, hm.self_succ, (moves_of hm).1.hasWon hw⟩

theorem exists_won {v : Visit α} (h : E.proc? t i = some v) (hv : v.hasWon = true) :
    ∃ a, Won E t i a := by
  obtain ⟨e, v₀, _, he, hs⟩ := exists_stands h
  cases hs with
  | @won a => exact ⟨a, ⟨e, he⟩, v, h, hv⟩
  | fresh hf =>
    cases hf with
    | wait hw => cases hw <;> cases hv
    | _ => cases hv
  | _ => cases hv

theorem exists_winner (h : (E.cells t).promise.slot = some a) : ∃ i, Won E t i a := by
  induction t with
  | zero =>
    have hempty : E.first.promise.slot = some a := h
    rw [E.isInitial] at hempty
    cases hempty
  | succ t ih =>
    have hbefore (h : (E.cells t).promise.slot = some a) : ∃ i, Won E (t + 1) i a := by
      obtain ⟨i, hi⟩ := ih h
      exact ⟨i, hi.mono (Nat.le_succ t)⟩
    obtain he | ⟨i, v, fired, answer, q, hm⟩ := Execution.cells_succ (E := E) t
    · exact hbefore (he ▸ h)
    · have hmove := (moves_of hm).1
      have hself := hm.self_succ
      generalize E.cells (t + 1) = m' at hmove h
      generalize q.self = v' at hmove hself
      cases hmove with
      | @store b =>
        obtain rfl : b = a := Option.some.inj h
        obtain ⟨e, v₀, _, he, hs⟩ := exists_stands hm.proc
        cases hs with
        | fresh => exact ⟨i, ⟨e, he⟩, _, hself, rfl⟩
        | won hw => cases hw
      | _ => exact hbefore h

theorem Won.slot (h : Won E t i a) : (E.cells t).promise.slot = some a := by
  obtain ⟨⟨e, he⟩, v, hv, hw⟩ := h
  have hcount : 0 < (E.run t).procs.countP Visit.hasWon :=
    List.countP_pos_iff.mpr ⟨v, List.mem_of_getElem? hv, hw⟩
  have hsum := countP_winners (E := E) t
  cases hs : (E.cells t).promise.slot with
  | none =>
    have hone : (E.cells t).vacancies = 1 := by simp [vacancies, hs]
    omega
  | some b =>
    obtain ⟨j, ⟨e', he'⟩, v', hv', hw'⟩ := exists_winner hs
    obtain rfl := one_winner hv hv' hw hw'
    obtain ⟨_, hab⟩ := he.unique he'
    cases hab
    rfl

theorem Won.unique (h : Won E t i a) (h' : Won E u j b) : i = j ∧ a = b := by
  have hmax := h.mono (Nat.le_max_left t u)
  have hmax' := h'.mono (Nat.le_max_right t u)
  have hslot := hmax.slot.symm.trans hmax'.slot
  obtain ⟨_, v, hv, hw⟩ := hmax
  obtain ⟨_, v', hv', hw'⟩ := hmax'
  exact ⟨one_winner hv hv' hw hw', Option.some.inj hslot⟩

theorem slot_of_done (h : (E.cells t).promise.done = true) :
    ∃ a, (E.cells t).promise.slot = some a := by
  induction t with
  | zero =>
    have hdone : E.first.promise.done = true := h
    rw [E.isInitial] at hdone
    cases hdone
  | succ t ih =>
    have hbefore (h : (E.cells t).promise.done = true) :
        ∃ a, (E.cells (t + 1)).promise.slot = some a := by
      obtain ⟨a, ha⟩ := ih h
      exact ⟨a, slot_stays ha (Nat.le_succ t)⟩
    obtain he | ⟨i, v, fired, answer, q, hm⟩ := Execution.cells_succ (E := E) t
    · exact hbefore (he ▸ h)
    · have hmove := (moves_of hm).1
      have hproc := hm.proc
      generalize hm' : E.cells (t + 1) = m' at hmove h
      generalize q.self = v' at hmove
      rw [hm'] at hbefore
      cases hmove with
      | raise =>
        obtain ⟨a, ha⟩ := exists_won hproc rfl
        exact ⟨a, ha.slot⟩
      | _ => exact hbefore h

/-! ## what a call has seen -/

/-- what a call that has ended tells about the promise -/
def Visit.Tells (m : Meeting α) : Visit α → Prop
  | .ended .lost => ∃ a, m.promise.slot = some a
  | .ended (.value a) => m.promise.slot = some a
  | .got (some a) => m.promise.slot = some a
  | .tested true => m.promise.done = true
  | _ => True

theorem Looks.tells {fired : Bool} {m : Meeting α} {v v' : Visit α} (h : Looks fired m v v') :
    v'.Tells m := by
  cases h with
  | lose _ hs => exact ⟨_, hs⟩
  | see _ hs => exact hs
  | find _ hs => exact hs
  | get => cases hs : m.promise.slot <;> simp [Visit.Tells, hs]
  | test => cases hd : m.promise.done <;> simp [Visit.Tells, hd]
  | _ => exact trivial

theorem Moves.tells {fired : Bool} {m m' : Meeting α} {v v' : Visit α}
    (h : Moves fired m v m' v') : v'.Tells m' := by
  cases h with
  | look hl => exact hl.tells
  | _ => exact trivial

theorem Moves.tells_still {fired : Bool} {m m' : Meeting α} {v v' w : Visit α}
    (h : Moves fired m v m' v') (hw : w.Tells m) : w.Tells m' := by
  unfold Visit.Tells at hw ⊢
  split at hw
  · exact hw.imp fun a ha => h.slot ha
  · exact h.slot hw
  · exact h.slot hw
  · exact h.done hw
  · exact trivial

/-- **What a call has seen is still so.** -/
theorem tells {v : Visit α} (h : E.proc? t i = some v) : v.Tells (E.cells t) := by
  induction t generalizing v with
  | zero => cases h
  | succ t ih =>
    have hold (h : v.Tells (E.cells t)) : v.Tells (E.cells (t + 1)) := by
      obtain he | ⟨j, w, fired, answer, q, hm⟩ := Execution.cells_succ (E := E) t
      · rw [he]
        exact h
      · exact (moves_of hm).1.tells_still h
    obtain h' | ⟨p, fired, answer, q, hm, rfl⟩ | ⟨_, hf⟩ | ⟨j, p, fired, answer, q, hm, hx, _⟩ :=
      Execution.proc_of_succ h
    · exact hold (ih h')
    · exact (moves_of hm).1.tells
    · cases hf with
      | wait hw => cases hw <;> exact trivial
      | _ => exact trivial
    · rw [(moves_of hm).2.1] at hx
      cases hx

theorem slot_of_observed {v : Visit α} (h : E.proc? t i = some v) (hv : v.observed? = some a) :
    (E.cells t).promise.slot = some a := by
  have htells := tells h
  cases v with
  | got found =>
    obtain rfl : found = some a := hv
    exact htells
  | ended r =>
    cases r with
    | value b =>
      obtain rfl : b = a := Option.some.inj hv
      exact htells
    | _ => cases hv
  | _ => cases hv

theorem exists_won_of_returned {r : Result α} (h : E.proc? t i = some (.ended r))
    (hr : r = .won ∨ r = .lost) : ∃ j a, Won E t j a := by
  obtain rfl | rfl := hr
  · obtain ⟨a, ha⟩ := exists_won h rfl
    exact ⟨i, a, ha⟩
  · obtain ⟨a, ha⟩ := tells h
    obtain ⟨j, hj⟩ := exists_winner ha
    exact ⟨j, a, hj⟩

/-! ## the lock -/

/-- who holds the lock between two moves is the winner, before it wakes the others -/
theorem exists_holder (h : (E.cells t).locked = true) :
    ∃ i v, E.proc? t i = some v ∧ v.holds = true := by
  induction t with
  | zero =>
    have hlocked : E.first.locked = true := h
    rw [E.isInitial] at hlocked
    cases hlocked
  | succ t ih =>
    obtain he | ⟨p, hin, _, he⟩ | ⟨i, v, fired, answer, q, hm⟩ := Execution.tick (E := E) t
    · unfold Execution.cells at h
      rw [he] at h
      obtain ⟨j, w, hj, hw⟩ := ih h
      refine ⟨j, w, ?_, hw⟩
      unfold Execution.proc?
      rw [he]
      exact hj
    · unfold Execution.cells at h
      rw [he, Run.shared_invoke] at h
      obtain ⟨j, w, hj, hw⟩ := ih h
      obtain h' | ⟨fired, answer, q, hm⟩ := Execution.proc_succ hj
      · exact ⟨j, w, h', hw⟩
      · cases hin.1.symm.trans hm.cue
    · have hother (hl : (E.cells t).locked = true) (hv : v.holds = false) :
          ∃ i v, E.proc? (t + 1) i = some v ∧ v.holds = true := by
        obtain ⟨j, w, hj, hw⟩ := ih hl
        have hne : j ≠ i := by
          rintro rfl
          obtain rfl : w = v := Option.some.inj (hj.symm.trans hm.proc)
          rw [hv] at hw
          cases hw
        refine ⟨j, w, ?_, hw⟩
        rw [hm.proc_succ (Execution.proc?_lt hj), if_neg hne]
        exact hj
      have hmove := (moves_of hm).1
      have hself := hm.self_succ
      generalize E.cells (t + 1) = m' at hmove h
      generalize q.self = v' at hmove hself
      cases hmove with
      | store => exact ⟨i, _, hself, rfl⟩
      | raise => exact ⟨i, _, hself, rfl⟩
      | unlock => cases h
      | look hl => exact hother h hl.holds.1
      | _ => exact hother h rfl

def Visit.ahead : Visit α → Nat
  | .raising => 4
  | .unlocking => 3
  | .waking => 2
  | .calling => 1
  | _ => 0

theorem next_of_hasWon {v : Visit α} (hv : v.hasWon = true) (hne : v ≠ .ended .won) (fired : Bool)
    (answer : Answering) (m : Meeting α) : ((next fired m v).under answer).isSome = true := by
  cases v with
  | raising | unlocking | waking | calling => rfl
  | ended r =>
    cases r with
    | won => exact absurd rfl hne
    | _ => cases hv
  | _ => cases hv

theorem Moves.ahead {fired : Bool} {m m' : Meeting α} {v v' : Visit α}
    (h : Moves fired m v m' v') (hv : v.hasWon = true) : v'.ahead < v.ahead := by
  cases h with
  | look hl =>
    rw [hl.hasWon.1] at hv
    cases hv
  | store => cases hv
  | _ => simp [Visit.ahead]

/-- **The winner returns**: nothing can hold it up. -/
theorem exists_returned (hfair : E.Fair) {v : Visit α} (h : E.proc? t i = some v)
    (hv : v.hasWon = true) : ∃ u, t ≤ u ∧ E.proc? u i = some (.ended .won) := by
  induction hn : v.ahead using Nat.strong_induction_on generalizing t v with
  | _ n ih =>
    by_cases hne : v = .ended .won
    · exact ⟨t, Nat.le_refl t, hne ▸ h⟩
    · obtain ⟨w, fired, answer, q, htw, hm⟩ :=
        hfair t i v h fun _ _ fired answer => next_of_hasWon hv hne fired answer _
      have hmove := (moves_of hm).1
      obtain ⟨u, hwu, hu⟩ := ih q.self.ahead (hn ▸ hmove.ahead hv) hm.self_succ (hmove.hasWon hv) rfl
      exact ⟨u, by omega, hu⟩

theorem over_stays {v : Visit α} (hv : v.Over) (h : E.proc? t i = some v) (htu : t ≤ u) :
    E.proc? u i = some v := by
  obtain h' | ⟨w, fired, answer, q, _, _, hm⟩ := Execution.stays_or_moves h htu
  · exact h'
  · have hq := hm.leads
    rw [hv] at hq
    cases hq

theorem exists_free (hfair : E.Fair) (h : (E.cells t).promise.slot = some a) :
    ∃ u, t ≤ u ∧ ∀ w, u ≤ w → (E.cells w).locked = false := by
  obtain ⟨i, _, v, hv, hw⟩ := exists_winner h
  obtain ⟨u, htu, hu⟩ := exists_returned hfair hv hw
  refine ⟨u, htu, fun w huw => ?_⟩
  have hwon := over_stays (fun _ _ => rfl) hu huw
  by_contra hl
  obtain ⟨j, v', hj, hh⟩ := exists_holder (Bool.not_eq_false _ ▸ hl)
  have hw' : v'.hasWon = true := by
    cases v' <;> first | rfl | cases hh
  obtain rfl := one_winner hwon hj rfl hw'
  cases hwon.symm.trans hj
  cases hh

/-! ## late calls -/

def Visit.answered (a : α) : Visit α → Visit α
  | .resolving _ => .ended .lost
  | .getting => .got (some a)
  | .testing => .tested true
  | _ => .ended (.value a)

/-- where a call stands that came in when the promise was resolved -/
inductive Late (a : α) (v : Visit α) : Visit α → Prop where
  | fresh : Late a v v
  | looking {seen : Nat} : v = .registering → Late a v (.looking seen)
  | answered : Late a v (v.answered a)

theorem Late.hasWon {v v' : Visit α} (hl : Late a v v') (hv : v.Fresh) : v'.hasWon = false := by
  cases hl with
  | looking => rfl
  | fresh | answered =>
    cases hv with
    | wait hw => cases hw <;> rfl
    | _ => rfl

theorem Late.looks {fired : Bool} {m : Meeting α} {v v' v'' : Visit α} (hl : Late a v v')
    (hv : v.Fresh) (h : Looks fired m v' v'') (hs : m.promise.slot = some a)
    (hd : m.promise.done = true) :
    v'' = v.answered a ∨ (v = .registering ∧ v' = v ∧ ∃ seen, v'' = .looking seen) := by
  cases hl with
  | answered =>
    cases hv with
    | wait hw => cases hw <;> cases h
    | _ => cases h
  | looking he =>
    subst he
    cases h with
    | find _ hs' =>
      cases hs.symm.trans hs'
      exact .inl rfl
    | miss _ hs' => cases hs.symm.trans hs'
  | fresh =>
    cases h with
    | lose => exact .inl rfl
    | see _ hs' =>
      cases hs.symm.trans hs'
      exact .inl rfl
    | cancel _ hs' | park _ hs' => cases hs.symm.trans hs'
    | register => exact .inr ⟨rfl, rfl, _, rfl⟩
    | get => exact .inl (congrArg Visit.got hs)
    | test => exact .inl (congrArg Visit.tested hd)
    | _ =>
      cases hv with
      | wait hw => cases hw

/-- a late call is answered by its first move, or registers first and is answered by the next -/
theorem Late.next {fired : Bool} {m m' : Meeting α} {v v' v'' : Visit α} (hl : Late a v v')
    (hv : v.Fresh) (h : Moves fired m v' m' v'') (hs : m.promise.slot = some a)
    (hd : m.promise.done = true) :
    v'' = v.answered a ∨ (v = .registering ∧ v' = v ∧ ∃ seen, v'' = .looking seen) := by
  have hwon := hl.hasWon hv
  cases h with
  | look h => exact hl.looks hv h hs hd
  | store _ hs' => cases hs.symm.trans hs'
  | _ => cases hwon

theorem Late.step {fired : Bool} {m m' : Meeting α} {v v' v'' : Visit α} (hl : Late a v v')
    (hv : v.Fresh) (h : Moves fired m v' m' v'') (hs : m.promise.slot = some a)
    (hd : m.promise.done = true) : Late a v v'' := by
  obtain rfl | ⟨he, _, seen, rfl⟩ := hl.next hv h hs hd
  · exact .answered
  · exact .looking he

theorem exists_late {v : Visit α} (hd : (E.cells t).promise.done = true)
    (hs : (E.cells t).promise.slot = some a) (htu : t ≤ u) (h : E.Enters u i v) (hv : v.Fresh)
    {w : Nat} (huw : u < w) : ∃ v', E.proc? w i = some v' ∧ Late a v v' := by
  induction w, huw using Nat.le_induction with
  | base => exact ⟨v, h.proc_succ, .fresh⟩
  | succ w huw ih =>
    obtain ⟨v', hv', hl⟩ := ih
    have htw : t ≤ w := by omega
    obtain h' | ⟨fired, answer, q, hm⟩ := Execution.proc_succ hv'
    · exact ⟨v', h', hl⟩
    · exact ⟨q.self, hm.self_succ,
        hl.step hv (moves_of hm).1 (slot_stays hs htw) (done_stays hd htw)⟩

theorem Late.can_move {m : Meeting α} {v v' : Visit α} (hl : Late a v v') (hv : v.Fresh)
    (hne : v' ≠ v.answered a) (hs : m.promise.slot = some a) (hfree : m.locked = false)
    (fired : Bool) (answer : Answering) : ((Meeting.next fired m v').under answer).isSome = true := by
  cases hl with
  | answered => exact absurd rfl hne
  | looking => simp [Meeting.next, hfree, hs, go]
  | fresh =>
    cases hv with
    | resolve => simp [Meeting.next, hfree, hs, go]
    | get => simp [Meeting.next, hfree, go]
    | test => rfl
    | wait hw =>
      cases hw with
      | thread => simp [Meeting.next, hfree, Promise.look_of_slot hs, go]
      | future => rfl

theorem Late.eq_answered {v v' : Visit α} (hl : Late a v v') (hv : v.Fresh) (hover : v'.Over) :
    v' = v.answered a := by
  by_contra hne
  have hcan := hl.can_move (m := ⟨⟨some a, true⟩, false, 0, 0⟩) hv hne rfl rfl true
    fun _ => .panicked .other
  rw [hover] at hcan
  cases hcan

/-- **Who comes in after the flag was raised is answered**, whether or not its token has fired. -/
theorem exists_answered (hfair : E.Fair) {v : Visit α} (hd : (E.cells t).promise.done = true)
    (hs : (E.cells t).promise.slot = some a) (htu : t ≤ u) (h : E.Enters u i v) (hv : v.Fresh) :
    ∃ w, E.proc? w i = some (v.answered a) := by
  obtain ⟨f, htf, hfree⟩ := exists_free hfair hs
  -- one move, made when the lock is free for good
  have hmove {s : Nat} {v' : Visit α} (hfs : f ≤ s) (hp : E.proc? s i = some v')
      (hl : Late a v v') (hne : v' ≠ v.answered a) :
      ∃ w v'', s ≤ w ∧ E.proc? w i = some v'' ∧
        (v'' = v.answered a ∨ (v = .registering ∧ v' = v ∧ ∃ seen, v'' = .looking seen)) := by
    obtain ⟨w, fired, answer, q, hsw, hm⟩ := hfair s i v' hp fun w hsw fired answer =>
      hl.can_move hv hne (slot_stays hs (by omega)) (hfree w (by omega)) fired answer
    exact ⟨w + 1, q.self, by omega, hm.self_succ,
      hl.next hv (moves_of hm).1 (slot_stays hs (by omega)) (done_stays hd (by omega))⟩
  have huw : u < max (u + 1) f := by omega
  obtain ⟨v', hv', hl⟩ := exists_late hd hs htu h hv huw
  by_cases hne : v' = v.answered a
  · exact ⟨_, hne ▸ hv'⟩
  · obtain ⟨w, v'', hw, hp, rfl | ⟨hreg, _, seen, rfl⟩⟩ := hmove (Nat.le_max_right _ _) hv' hl hne
    · exact ⟨w, hp⟩
    · have hnext : Visit.looking seen ≠ v.answered a := by
        rw [hreg]
        exact nofun
      obtain ⟨w', v', _, hp', rfl | ⟨_, he, _⟩⟩ :=
        hmove (by omega) hp (.looking hreg) hnext
      · exact ⟨w', hp'⟩
      · rw [hreg] at he
        cases he

/-! ## waits -/

theorem exists_cancelled {e : Nat} (h : E.Enters e i .entering)
    (hp : E.proc? t i = some (.ended .cancelled)) :
    ∃ u answer q, e < u ∧ u < t ∧ E.Moves u i .entering true answer q ∧
      q.self = .ended .cancelled ∧ (E.cells u).promise.slot = none ∧
      (E.cells u).promise.done = false := by
  induction t with
  | zero => cases hp
  | succ t ih =>
    obtain h' | ⟨v, fired, answer, q, hm, hq⟩ | ⟨_, hf⟩ | ⟨j, v, fired, answer, q, hm, hx, _⟩ :=
      Execution.proc_of_succ hp
    · obtain ⟨u, answer, q, heu, hut, hrest⟩ := ih h'
      exact ⟨u, answer, q, heu, Nat.lt_succ_of_lt hut, hrest⟩
    · have hstands := stands_of_enters h hm.proc
      have hmove := (moves_of hm).1
      have heu := h.lt_of_proc hm.proc
      have hopen (hs : (E.cells t).promise.slot = none) : (E.cells t).promise.done = false := by
        by_contra hd
        obtain ⟨a, ha⟩ := slot_of_done (Bool.not_eq_false _ ▸ hd)
        cases hs.symm.trans ha
      rw [hq] at hmove
      generalize E.cells (t + 1) = m' at hmove
      cases hmove with
      | look hl =>
        cases hl with
        | cancel _ hs hf =>
          subst hf
          exact ⟨t, answer, q, heu, Nat.lt_succ_self t, hm, hq, hs, hopen hs⟩
        | giveUp => cases hstands
    · cases hf with
      | wait hw => cases hw
    · rw [(moves_of hm).2.1] at hx
      cases hx

theorem silent_of_waits {e : Nat} {v₀ : Visit α} (h : E.Enters e i v₀) (hw : v₀.Waits) :
    E.Silent i := by
  intro t v fired answer q hm
  have hstands := stands_of_enters h hm.proc
  obtain ⟨hmove, hspawned, hevents⟩ := moves_of hm
  refine ⟨?_, hspawned, hevents⟩
  rw [← hm.cells_succ]
  have hwon : v.hasWon = false := by
    cases hw <;> cases hstands with
    | fresh => rfl
    | _ => rfl
  generalize E.cells (t + 1) = m' at hmove
  generalize q.self = v' at hmove
  cases hmove with
  | look => rfl
  | store => cases hw <;> cases hstands
  | _ => cases hwon

theorem waits_of_cancelled (h : E.proc? t i = some (.ended .cancelled)) :
    ∃ e v₀, E.Enters e i v₀ ∧ v₀.Waits := by
  obtain ⟨e, v₀, _, he, hs⟩ := exists_stands h
  cases hs with
  | cancelled hw => exact ⟨e, v₀, he, hw⟩
  | won hw => cases hw
  | fresh hf =>
    cases hf with
    | wait hw => cases hw

/-! ## what callers rely on -/

/-- what callers rely on at a promise -/
structure Reliable (E : Meetings α) : Prop where
  /-- at most one resolution returns true -/
  once {t u i j : Nat} : E.proc? t i = some (.ended .won) → E.proc? u j = some (.ended .won) → i = j
  /-- only one resolution ever fills the slot -/
  unique {t u i j : Nat} {a b : α} : Won E t i a → Won E u j b → i = j ∧ a = b
  /-- when a resolution has returned, then there is the winner: no other resolution returns true,
  and it does, without waiting for anyone -/
  winner {t i : Nat} {r : Result α} : E.proc? t i = some (.ended r) → r = .won ∨ r = .lost →
    ∃ j a, Won E t j a ∧ (∀ u k, E.proc? u k = some (.ended .won) → k = j) ∧
      (∀ u v, t ≤ u → E.proc? u j = some v → v.Over → v = .ended .won) ∧
      (E.Fair → ∃ u, E.proc? u j = some (.ended .won))
  /-- every value that a call has seen is the winner's -/
  value {t i : Nat} {v : Visit α} {a : α} : E.proc? t i = some v → v.observed? = some a →
    ∃ j, Won E t j a
  /-- the flag stays raised -/
  done {t u : Nat} : (E.cells t).promise.done = true → t ≤ u → (E.cells u).promise.done = true
  /-- when the flag was seen raised, then every call that comes in from now on can only end as one
  that finds the winner's value, and does end, whatever tokens fire -/
  settled {t k : Nat} : E.proc? t k = some (.tested true) →
    ∃ j a, Won E t j a ∧ ∀ u i v, t ≤ u → E.Enters u i v →
      (∀ w v', E.proc? w i = some v' → v'.Over → v' = v.answered a) ∧
      (E.Fair → ∃ w, E.proc? w i = some (v.answered a))
  /-- a thread is cancelled only by its own token, at a promise that is not resolved -/
  cancelled {e t i : Nat} : E.Enters e i .entering → E.proc? t i = some (.ended .cancelled) →
    ∃ u answer q, e < u ∧ u < t ∧ E.Moves u i .entering true answer q ∧
      q.self = .ended .cancelled ∧ (E.cells u).promise.slot = none ∧
      (E.cells u).promise.done = false
  /-- a wait that was cancelled could as well not have moved: the promise and all other calls are
  the same at every moment, and go on alike -/
  harmless {t i : Nat} : E.proc? t i = some (.ended .cancelled) →
    ∃ E' : Meetings α, (∀ t, E'.cue t = (E.cue t).without i) ∧
      ∀ t cues, (∀ c ∈ cues, c.isMoveOf i = false) →
        Run.AgreeBut i ((E.run t).followAll next cues) ((E'.run t).followAll next cues)

theorem Won.returns (h : Won E t j a) {v : Visit α} (htu : t ≤ u) (hp : E.proc? u j = some v)
    (hv : v.Over) : v = .ended .won := by
  obtain ⟨_, v', hv', hw⟩ := h.mono htu
  obtain rfl : v = v' := Option.some.inj (hp.symm.trans hv')
  by_contra hne
  have hcan := next_of_hasWon hw hne true (fun _ => .panicked .other) {}
  rw [hv] at hcan
  cases hcan

/-- **A promise can be relied on**, whoever comes in and in whatever order the calls move. -/
theorem reliable (E : Meetings α) : Reliable E where
  once hi hj := by
    obtain ⟨a, ha⟩ := exists_won hi rfl
    obtain ⟨b, hb⟩ := exists_won hj rfl
    exact (ha.unique hb).1
  unique := Won.unique
  winner {t i r} hp hr := by
    obtain ⟨j, a, hj⟩ := exists_won_of_returned hp hr
    refine ⟨j, a, hj, fun u k hk => ?_, fun u v htu hv => hj.returns htu hv, fun hfair => ?_⟩
    · obtain ⟨b, hb⟩ := exists_won hk rfl
      exact (hb.unique hj).1
    · obtain ⟨_, v, hv, hw⟩ := hj
      obtain ⟨u, _, hu⟩ := exists_returned hfair hv hw
      exact ⟨u, hu⟩
  value hp hv := exists_winner (slot_of_observed hp hv)
  done := done_stays
  settled {t k} hp := by
    have hd : (E.cells t).promise.done = true := tells hp
    obtain ⟨a, ha⟩ := slot_of_done hd
    obtain ⟨j, hj⟩ := exists_winner ha
    refine ⟨j, a, hj, fun u i v htu he => ?_⟩
    have hv : v.Fresh := E.mayEnter u v he.1
    refine ⟨fun w v' hp hover => ?_, fun hfair => exists_answered hfair hd ha htu he hv⟩
    obtain ⟨v'', hp', hl⟩ := exists_late hd ha htu he hv (he.lt_of_proc hp)
    obtain rfl : v' = v'' := Option.some.inj (hp.symm.trans hp')
    exact hl.eq_answered hv hover
  cancelled := exists_cancelled
  harmless hp := by
    obtain ⟨e, v₀, he, hw⟩ := waits_of_cancelled hp
    exact (silent_of_waits he hw).exists_without

/-- a wait is cancelled, one resolution wins and another loses, and late calls are answered, among
them a future whose token has fired -/
example :
    (Run.followAll next ⟨({} : Meeting Nat), [], []⟩
      (.enter .entering :: .enter (.resolving 1) :: .enter (.resolving 2) ::
        .move 0 true (.granting []) ::
        (List.replicate 5 (.move 2 false (.granting []))) ++
        [.move 1 false (.granting []), .enter .testing, .enter .getting, .enter .registering,
          .move 3 false (.granting []), .move 4 false (.granting []),
          .move 5 true (.granting []), .move 5 true (.granting [])])).procs
      = [.ended .cancelled, .ended .lost, .ended .won, .tested true, .got (some 2),
          .ended (.value 2)] := by
  rfl

end IndexCoordinator.Meeting
