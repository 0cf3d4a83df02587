import IndexCoordinator.Promise.Meeting

/-!
# Parking at a promise

The moves at a promise, with those of a waiting thread taken apart.  A thread that has looked under
the lock and found nothing still holds the lock; it gives it back and parks in one move.  In between
everyone may move who does not need the lock, also a resolver that is about to wake the threads.

A parked thread goes on when it is woken and, if poll intervals end, whenever its interval is over.
Everyone else moves as in `Meeting.next`, and so does a thread whose two moves are taken together
(`Meeting.next_together`).
-/

namespace IndexCoordinator.Meeting

/-- where a caller of a promise stands -/
inductive Caller (α : Type) where
  | visiting (v : Visit α)
  /-- a thread with the lock that has found nothing and is about to park -/
  | parking
deriving DecidableEq, Repr

variable {α : Type}

/-- what a move at a promise leads to, for a caller -/
def Caller.visit : Progress (Meeting α) (Visit α) → Progress (Meeting α) (Caller α) :=
  Progress.map id .visiting

/-- the next move of a caller; `polls` tells whether poll intervals end -/
def Caller.next (polls : Bool) : Program (Meeting α) (Caller α)
  | fired, m, .visiting .entering =>
    if m.locked then .blocked
    else match m.promise.look fired with
      | .value a => .act { shared := m, self := .visiting (.ended (.value a)) }
      | .cancelled => .act { shared := m, self := .visiting (.ended .cancelled) }
      | .nothing => .act { shared := { m with locked := true }, self := .parking }
  | _, m, .parking =>
    .act { shared := { m with locked := false }, self := .visiting (.parked m.wakes) }
  | _, m, .visiting (.parked seen) =>
    if seen < m.wakes ∨ polls then .act { shared := m, self := .visiting .entering } else .blocked
  | fired, m, .visiting v => (Meeting.next fired m v).map Caller.visit

/-- **A move at a promise is one move of a caller, or the two moves in which a thread parks.** -/
theorem next_together {fired : Bool} {m : Meeting α} {v : Visit α}
    {q : Progress (Meeting α) (Visit α)} (h : Meeting.next fired m v = .act q) :
    Caller.next true fired m (.visiting v) = .act (Caller.visit q) ∨
      ∃ m', Caller.next true fired m (.visiting v) = .act { shared := m', self := .parking } ∧
        ∀ fired', Caller.next true fired' m' .parking = .act (Caller.visit q) := by
  cases v with
  | entering =>
    simp only [Meeting.next, go] at h
    simp only [Caller.next]
    split at h
    · cases h
    · next hfree =>
      rw [if_neg hfree]
      have hlocked : m.locked = false := Bool.eq_false_iff.mpr hfree
      cases hlook : m.promise.look fired with
      | value a | cancelled =>
        rw [hlook] at h
        cases h
        exact .inl rfl
      | nothing =>
        rw [hlook] at h
        cases h
        refine .inr ⟨_, rfl, fun _ => ?_⟩
        simp [Caller.visit, Progress.map, ← hlocked]
  | parked seen =>
    simp only [Meeting.next, go] at h
    split at h
    · cases h
      exact .inl (by simp [Caller.next, Caller.visit, Progress.map])
    · cases h
  | _ =>
    left
    simp only [Caller.next, h]
    rfl

end IndexCoordinator.Meeting
