import IndexCoordinator.Interleaving
import IndexCoordinator.Promise

/-!
# Meeting at a promise

Resolving and waiting, move by move.  A resolver fills the slot and raises the flag under the lock,
wakes the parked threads and then calls the registered futures.  A thread that waits looks under the
lock and parks as it gives the lock back; a future registers first, looks then, and sleeps.  When it
is polled it asks whether it was called, and looks at its token afterwards.  Who does not want to
wait looks into the slot under the lock, or at the flag without it.

A wake-up reaches everyone who parked or registered before it, so it is enough to count them: a
waiter remembers the count it parked at and is woken once the count is larger.  A parked thread also
looks again whenever its poll interval is over; where it would find nothing it stays parked.
-/

namespace IndexCoordinator

/-- a promise with its lock and the counts of wake-ups -/
structure Meeting (α : Type) where
  promise : Promise α := {}
  /-- someone holds the lock of the slot -/
  locked : Bool := false
  /-- how often parked threads were woken -/
  wakes : Nat := 0
  /-- how often registered futures were called -/
  calls : Nat := 0

namespace Meeting

inductive Result (α : Type) where
  | won
  | lost
  | value (a : α)
  | cancelled
deriving DecidableEq, Repr

/-- where a call at a promise stands -/
inductive Visit (α : Type) where
  | resolving (a : α)
  | raising
  | unlocking
  | waking
  | calling
  | entering
  | parked (seen : Nat)
  | registering
  | looking (seen : Nat)
  /-- it is about to see whether it was called -/
  | polling (seen : Nat)
  /-- it was not called, and is about to look at its token -/
  | doubting (seen : Nat)
  | sleeping (seen : Nat)
  /-- about to look into the slot without waiting -/
  | getting
  | got (found : Option α)
  /-- about to look at the flag -/
  | testing
  | tested (done : Bool)
  | ended (result : Result α)
deriving DecidableEq, Repr

variable {α : Type}

def go (m : Meeting α) (v : Visit α) : Move (Progress (Meeting α) (Visit α)) :=
  .act { shared := m, self := v }

def next : Program (Meeting α) (Visit α)
  | _, m, .resolving a =>
    if m.locked then .blocked
    else match m.promise.slot with
      | some _ => go m (.ended .lost)
      | none => go { m with promise := m.promise.store a, locked := true } .raising
  | _, m, .raising => go { m with promise := m.promise.raise } .unlocking
  | _, m, .unlocking => go { m with locked := false } .waking
  | _, m, .waking => go { m with wakes := m.wakes + 1 } .calling
  | _, m, .calling => go { m with calls := m.calls + 1 } (.ended .won)
  | fired, m, .entering =>
    if m.locked then .blocked
    else match m.promise.look fired with
      | .value a => go m (.ended (.value a))
      | .cancelled => go m (.ended .cancelled)
      | .nothing => go m (.parked m.wakes)
  | fired, m, .parked seen =>
    if seen < m.wakes ∨ fired ∨ m.promise.slot.isSome then go m .entering else .blocked
  | _, m, .registering => go m (.looking m.calls)
  | _, m, .looking seen =>
    if m.locked then .blocked
    else match m.promise.slot with
      | some a => go m (.ended (.value a))
      | none => go m (.polling seen)
  | _, m, .polling seen => go m (if seen < m.calls then .registering else .doubting seen)
  | fired, m, .doubting seen => go m (if fired then .ended .cancelled else .sleeping seen)
  | fired, m, .sleeping seen =>
    if seen < m.calls ∨ fired then go m (.polling seen) else .blocked
  | _, m, .getting => if m.locked then .blocked else go m (.got m.promise.slot)
  | _, m, .testing => go m (.tested m.promise.done)
  | _, _, .got _ => .blocked
  | _, _, .tested _ => .blocked
  | _, _, .ended _ => .blocked

def Visit.result? : Visit α → Option (Result α)
  | .ended r => some r
  | _ => none

theorem raise_store (p : Promise α) (a : α) (h : p.slot = none) :
    (p.store a).raise = p.resolve a := by simp [Promise.resolve, h]

end Meeting

end IndexCoordinator
