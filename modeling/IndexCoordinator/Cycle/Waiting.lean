import IndexCoordinator.Cycle

/-!
# Waiting for a cycle

A caller that wants the configuration takes it from the cell or waits for the promise of the
build, and then puts it into the cell.  It waits in its thread, where it looks at the promise and
at its token in one section under the lock of the promise (`Await`), or as a future, which looks at
the promise first and at its token afterwards (`Poll`).  A caller that wants all indexes confirmed
goes on to wait for the promise that is then in the slot.
-/

namespace IndexCoordinator

/-- where a caller that wants the configuration stands -/
inductive Await where
  | reading
  | parked
  /-- it has the configuration from the promise -/
  | storing (configuration : IndexConfiguration)

abbrev ConfigurationResult := Except IndexError IndexConfiguration

/-- the next move; none while it has to wait -/
def Await.next (fired : Bool) (c : Cycle) :
    Await → Option (Cycle × Turn Await ConfigurationResult)
  | .reading =>
    match c.state with
    | some cfg => some (c, .stop (.ok cfg))
    | none => some (c, .go .parked)
  | .parked =>
    match c.outcome.look fired with
    | .value (.ok cfg) => some (c, .go (.storing cfg))
    | .value (.error e) => some (c, .stop (.error (.configuration e)))
    | .cancelled => some (c, .stop (.error .cancelled))
    | .nothing => none
  | .storing cfg => some ({ c with state := some cfg }, .stop (.ok cfg))

/-- where a future that wants the configuration stands -/
inductive Poll where
  | reading
  | looking
  /-- it has seen the promise unresolved, and is about to look at its token -/
  | doubting
  | sleeping
  /-- it has the configuration from the promise -/
  | storing (configuration : IndexConfiguration)

/-- the next move; none while it sleeps, until the promise is resolved or the token has fired -/
def Poll.next (fired : Bool) (c : Cycle) :
    Poll → Option (Cycle × Turn Poll ConfigurationResult)
  | .reading =>
    match c.state with
    | some cfg => some (c, .stop (.ok cfg))
    | none => some (c, .go .looking)
  | .looking =>
    match c.outcome.slot with
    | some (.ok cfg) => some (c, .go (.storing cfg))
    | some (.error e) => some (c, .stop (.error (.configuration e)))
    | none => some (c, .go .doubting)
  | .doubting => some (c, if fired then .stop (.error .cancelled) else .go .sleeping)
  | .sleeping => if c.outcome.isOpen && !fired then none else some (c, .go .looking)
  | .storing cfg => some ({ c with state := some cfg }, .stop (.ok cfg))

/-- where a caller that wants all indexes confirmed stands -/
inductive AwaitAll where
  | configuration (await : Await)
  | loading
  | parked (promise : Nat)

def AwaitAll.next (fired : Bool) (c : Cycle) :
    AwaitAll → Option (Cycle × Turn AwaitAll (Except IndexError Unit))
  | .configuration a =>
    match a.next fired c with
    | none => none
    | some (c, .go a) => some (c, .go (.configuration a))
    | some (c, .stop (.ok _)) => some (c, .go .loading)
    | some (c, .stop (.error e)) => some (c, .stop (.error e))
  | .loading => some (c, .go (.parked c.slot))
  | .parked k =>
    match (c.confirmation k).look fired with
    | .value () => some (c, .stop (.ok ()))
    | .cancelled => some (c, .stop (.error .cancelled))
    | .nothing => none

end IndexCoordinator
