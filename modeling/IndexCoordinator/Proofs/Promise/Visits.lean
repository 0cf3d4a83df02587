import IndexCoordinator.Promise.Meeting
import IndexCoordinator.Proofs.Execution

/-!
# Calls at a promise

Any number of calls come in at one promise, and their tokens fire at any time.

* `Meeting.Moves`            the moves at a promise; all but those of the call that fills the slot
                             only look (`Meeting.Looks`);
* `Meeting.Visit.Stands`     where a call can stand, by how it came in;
* `Meeting.Visit.Over`       a call that has ended;
* `Meeting.exists_stands`, `Meeting.stands_of_enters`   every call came in, and goes on from there;
* `Meeting.slot_stays`, `Meeting.done_stays`   what a promise keeps.

A promise that is made resolved is one at which the first call resolves it before any other comes
in (`Meeting.raise_store`).
-/

namespace IndexCoordinator

namespace Meeting

variable {α : Type}

namespace Visit

inductive Waits : Visit α → Prop where
  | thread : Waits .entering
  | future : Waits .registering

inductive Fresh : Visit α → Prop where
  | resolve (a : α) : Fresh (.resolving a)
  | get : Fresh .getting
  | test : Fresh .testing
  | wait {v : Visit α} : v.Waits → Fresh v

def hasWon : Visit α → Bool
  | .raising => true
  | .unlocking => true
  | .waking => true
  | .calling => true
  | .ended .won => true
  | _ => false

def holds : Visit α → Bool
  | .raising => true
  | .unlocking => true
  | _ => false

def observed? : Visit α → Option α
  | .got found => found
  | .ended (.value a) => some a
  | _ => none

def Over (v : Visit α) : Prop := ∀ fired m, next fired m v = .blocked

/-- where a call can stand, by the position at which it came in -/
inductive Stands : Visit α → Visit α → Prop where
  | fresh {v : Visit α} : v.Fresh → Stands v v
  | won {a : α} {v : Visit α} : v.hasWon = true → Stands (.resolving a) v
  | lost {a : α} : Stands (.resolving a) (.ended .lost)
  | got {found : Option α} : Stands .getting (.got found)
  | tested {done : Bool} : Stands .testing (.tested done)
  | parked {seen : Nat} : Stands .entering (.parked seen)
  | looking {seen : Nat} : Stands .registering (.looking seen)
  | polling {seen : Nat} : Stands .registering (.polling seen)
  | doubting {seen : Nat} : Stands .registering (.doubting seen)
  | sleeping {seen : Nat} : Stands .registering (.sleeping seen)
  | value {v : Visit α} {a : α} : v.Waits → Stands v (.ended (.value a))
  | cancelled {v : Visit α} : v.Waits → Stands v (.ended .cancelled)

end Visit

/-- the moves that leave the promise as it is -/
inductive Looks (fired : Bool) (m : Meeting α) : Visit α → Visit α → Prop where
  | lose {a b : α} : m.locked = false → m.promise.slot = some b →
      Looks fired m (.resolving a) (.ended .lost)
  | see {a : α} : m.locked = false → m.promise.slot = some a →
      Looks fired m .entering (.ended (.value a))
  | cancel : m.locked = false → m.promise.slot = none → fired = true →
      Looks fired m .entering (.ended .cancelled)
  | park : m.locked = false → m.promise.slot = none → fired = false →
      Looks fired m .entering (.parked m.wakes)
  | stir {seen : Nat} : Looks fired m (.parked seen) .entering
  | register : Looks fired m .registering (.looking m.calls)
  | find {seen : Nat} {a : α} : m.locked = false → m.promise.slot = some a →
      Looks fired m (.looking seen) (.ended (.value a))
  | miss {seen : Nat} : m.locked = false → m.promise.slot = none →
      Looks fired m (.looking seen) (.polling seen)
  | called {seen : Nat} : seen < m.calls → Looks fired m (.polling seen) .registering
  | doubt {seen : Nat} : m.calls ≤ seen → Looks fired m (.polling seen) (.doubting seen)
  | giveUp {seen : Nat} : fired = true → Looks fired m (.doubting seen) (.ended .cancelled)
  | sleep {seen : Nat} : fired = false → Looks fired m (.doubting seen) (.sleeping seen)
  | rouse {seen : Nat} : Looks fired m (.sleeping seen) (.polling seen)
  | get : m.locked = false → Looks fired m .getting (.got m.promise.slot)
  | test : Looks fired m .testing (.tested m.promise.done)

/-- the moves at a promise: what they make of it and where they lead -/
inductive Moves (fired : Bool) (m : Meeting α) : Visit α → Meeting α → Visit α → Prop where
  | store {a : α} : m.locked = false → m.promise.slot = none →
      Moves fired m (.resolving a) { m with promise := m.promise.store a, locked := true } .raising
  | raise : Moves fired m .raising { m with promise := m.promise.raise } .unlocking
  | unlock : Moves fired m .unlocking { m with locked := false } .waking
  | wake : Moves fired m .waking { m with wakes := m.wakes + 1 } .calling
  | call : Moves fired m .calling { m with calls := m.calls + 1 } (.ended .won)
  | look {v v' : Visit α} : Looks fired m v v' → Moves fired m v m v'

section
variable {fired : Bool} {answer : Answering} {m : Meeting α} {v v' : Visit α}
  {q : Progress (Meeting α) (Visit α)}

theorem under_go {m' : Meeting α} (h : (go m' v').under answer = some q)
    (hm : Moves fired m v m' v') :
    Moves fired m v q.shared q.self ∧ q.spawned = [] ∧ q.events = [] := by
  cases h
  exact ⟨hm, rfl, rfl⟩

/-- **Every move at a promise is one of these**; it starts nothing and leaves no event. -/
theorem moves_of_next (h : (next fired m v).under answer = some q) :
    Moves fired m v q.shared q.self ∧ q.spawned = [] ∧ q.events = [] := by
  cases v with
  | resolving a =>
    simp only [next] at h
    split at h
    · cases h
    · next hl =>
      have hl' : m.locked = false := Bool.eq_false_iff.mpr hl
      split at h
      · next b hs => exact under_go h (.look (.lose hl' hs))
      · next hs => exact under_go h (.store hl' hs)
  | raising => exact under_go h .raise
  | unlocking => exact under_go h .unlock
  | waking => exact under_go h .wake
  | calling => exact under_go h .call
  | entering =>
    simp only [next] at h
    split at h
    · cases h
    · next hl =>
      have hl' : m.locked = false := Bool.eq_false_iff.mpr hl
      cases hs : m.promise.slot with
      | some a =>
        rw [Promise.look_of_slot hs] at h
        exact under_go h (.look (.see hl' hs))
      | none =>
        cases fired with
        | false =>
          simp only [Promise.look, hs] at h
          exact under_go h (.look (.park hl' hs rfl))
        | true =>
          simp only [Promise.look, hs] at h
          exact under_go h (.look (.cancel hl' hs rfl))
  | parked seen =>
    simp only [next] at h
    split at h
    · exact under_go h (.look .stir)
    · cases h
  | registering => exact under_go h (.look .register)
  | looking seen =>
    simp only [next] at h
    split at h
    · cases h
    · next hl =>
      have hl' : m.locked = false := Bool.eq_false_iff.mpr hl
      split at h
      · next a hs => exact under_go h (.look (.find hl' hs))
      · next hs => exact under_go h (.look (.miss hl' hs))
  | polling seen =>
    simp only [next] at h
    split at h
    · next hc => exact under_go h (.look (.called hc))
    · next hc => exact under_go h (.look (.doubt (Nat.le_of_not_lt hc)))
  | doubting seen =>
    cases fired with
    | false => exact under_go h (.look (.sleep rfl))
    | true => exact under_go h (.look (.giveUp rfl))
  | sleeping seen =>
    simp only [next] at h
    split at h
    · exact under_go h (.look .rouse)
    · cases h
  | getting =>
    simp only [next] at h
    split at h
    · cases h
    · next hl => exact under_go h (.look (.get (Bool.eq_false_iff.mpr hl)))
  | testing => exact under_go h (.look .test)
  | got found => cases h
  | tested done => cases h
  | ended r => cases h

namespace Looks

theorem hasWon (h : Looks fired m v v') : v.hasWon = false ∧ v'.hasWon = false := by
  cases h <;> exact ⟨rfl, rfl⟩

theorem holds (h : Looks fired m v v') : v.holds = false ∧ v'.holds = false := by
  cases h <;> exact ⟨rfl, rfl⟩

theorem stands {v₀ : Visit α} (h : Looks fired m v v') (hv : v₀.Stands v) : v₀.Stands v' := by
  cases hv with
  | fresh hf =>
    cases hf with
    | resolve a => cases h; exact .lost
    | get => cases h; exact .got
    | test => cases h; exact .tested
    | wait hw =>
      cases hw with
      | thread =>
        cases h with
        | see => exact .value .thread
        | cancel => exact .cancelled .thread
        | park => exact .parked
      | future => cases h; exact .looking
  | won hw =>
    rw [h.hasWon.1] at hw
    cases hw
  | lost | got | tested | value | cancelled => cases h
  | parked => cases h; exact .fresh (.wait .thread)
  | looking =>
    cases h with
    | find => exact .value .future
    | miss => exact .polling
  | polling =>
    cases h with
    | called => exact .fresh (.wait .future)
    | doubt => exact .doubting
  | doubting =>
    cases h with
    | giveUp => exact .cancelled .future
    | sleep => exact .sleeping
  | sleeping => cases h; exact .polling

end Looks

namespace Moves

variable {m' : Meeting α}

theorem stands {v₀ : Visit α} (h : Moves fired m v m' v') (hv : v₀.Stands v) : v₀.Stands v' := by
  have hwon (hw : v.hasWon = true) (hw' : v'.hasWon = true) : v₀.Stands v' := by
    cases hv with
    | won => exact .won hw'
    | fresh hf =>
      cases hf with
      | wait hwait => cases hwait <;> cases hw
      | _ => cases hw
    | _ => cases hw
  cases h with
  | look hl => exact hl.stands hv
  | store =>
    cases hv with
    | fresh => exact .won rfl
    | won hw => cases hw
  | _ => exact hwon rfl rfl

theorem slot {a : α} (h : Moves fired m v m' v') (hs : m.promise.slot = some a) :
    m'.promise.slot = some a := by
  cases h with
  | store _ hn => rw [hs] at hn; cases hn
  | _ => exact hs

theorem done (h : Moves fired m v m' v') (hd : m.promise.done = true) :
    m'.promise.done = true := by
  cases h with
  | raise => rfl
  | _ => exact hd

end Moves

end

end Meeting

/-- executions at one new promise with any calls -/
abbrev Meetings (α : Type) :=
  Execution (Meeting.next (α := α)) (fun _ v => v.Fresh) fun m => m = {}

namespace Meeting

variable {α : Type} {E : Meetings α} {t u i : Nat}

theorem moves_of {v : Visit α} {fired : Bool} {answer : Answering}
    {q : Progress (Meeting α) (Visit α)} (h : E.Moves t i v fired answer q) :
    Moves fired (E.cells t) v (E.cells (t + 1)) q.self ∧ q.spawned = [] ∧ q.events = [] := by
  rw [h.cells_succ]
  exact moves_of_next h.leads

theorem exists_stands {v : Visit α} (h : E.proc? t i = some v) :
    ∃ e v₀, e < t ∧ E.Enters e i v₀ ∧ v₀.Stands v := by
  induction t generalizing v with
  | zero => cases h
  | succ t ih =>
    obtain h' | ⟨p, fired, answer, q, hm, rfl⟩ | ⟨he, hf⟩ | ⟨j, p, fired, answer, q, hm, hx, _⟩ :=
      Execution.proc_of_succ h
    · obtain ⟨e, v₀, he, hv⟩ := ih h'
      exact ⟨e, v₀, Nat.lt_succ_of_lt he, hv⟩
    · obtain ⟨e, v₀, he, hin, hv⟩ := ih hm.proc
      exact ⟨e, v₀, Nat.lt_succ_of_lt he, hin, (moves_of hm).1.stands hv⟩
    · exact ⟨t, v, Nat.lt_succ_self t, he, .fresh hf⟩
    · rw [(moves_of hm).2.1] at hx
      cases hx

theorem stands_of_enters {e : Nat} {v₀ v : Visit α} (h : E.Enters e i v₀)
    (hp : E.proc? t i = some v) : v₀.Stands v := by
  obtain ⟨e', v₁, _, h', hv⟩ := exists_stands hp
  obtain ⟨_, rfl⟩ := h.unique h'
  exact hv

/-- what every move keeps of a promise stays from any moment on -/
theorem promise_stays {P : Meeting α → Prop}
    (hP : ∀ fired m v m' v', Moves fired m v m' v' → P m → P m')
    (h : P (E.cells t)) (htu : t ≤ u) : P (E.cells u) := by
  induction u, htu using Nat.le_induction with
  | base => exact h
  | succ u _ ih =>
    obtain he | ⟨i, v, fired, answer, q, hm⟩ := Execution.cells_succ (E := E) u
    · rw [he]
      exact ih
    · exact hP _ _ _ _ _ (moves_of hm).1 ih

theorem slot_stays {a : α} (h : (E.cells t).promise.slot = some a) (htu : t ≤ u) :
    (E.cells u).promise.slot = some a :=
  promise_stays (P := fun m => m.promise.slot = some a) (fun _ _ _ _ _ hm hs => hm.slot hs) h htu

theorem done_stays (h : (E.cells t).promise.done = true) (htu : t ≤ u) :
    (E.cells u).promise.done = true :=
  promise_stays (P := fun m => m.promise.done = true) (fun _ _ _ _ _ hm hd => hm.done hd) h htu

end Meeting

end IndexCoordinator
