import IndexCoordinator.Cycle

/-!
# Confirming that the indexes are current

Who asks for a confirmation takes the current promise, or puts a new one in its place when the
current one is resolved, and starts a maintenance task that will resolve it.  The promise is put
in place by a comparison with the one that was seen, and tried again when another came in between.

A maintenance task waits for the build.  It does its work in storage unless the build failed or the
cycle was shut down, and resolves its promise unless the build failed.
-/

namespace IndexCoordinator

/-- where a caller that asks for a confirmation stands -/
inductive Ensure where
  | looking
  /-- the promise it saw, and whether that was resolved -/
  | swapping (seen : Nat) (wasDone : Bool)
  | spawning (promise : Nat)
deriving DecidableEq, Repr

/-- the next move; the result is the promise for which a task is to be started -/
def Ensure.next (c : Cycle) : Ensure → Cycle × Turn Ensure Nat
  | .looking => (c, .go (.swapping c.slot (c.confirmation c.slot).done))
  | .swapping seen wasDone =>
    if c.slot = seen then
      if wasDone then
        let fresh := c.confirmations.length
        ({ c with confirmations := c.confirmations ++ [{}], slot := fresh }, .go (.spawning fresh))
      else (c, .go (.spawning seen))
    else (c, .go .looking)
  | .spawning k => (c, .stop k)

inductive MaintenanceEnd where
  /-- the build failed; its promise stays unresolved -/
  | buildFailed
  /-- the cycle was shut down before the build ended -/
  | abandoned
  /-- the cycle was shut down before the work began -/
  | skipped
  | passed
  /-- a panic of storage, which was caught -/
  | caught (payload : PanicPayload)
deriving DecidableEq, Repr

/-- where a maintenance task stands -/
inductive MaintenanceStage where
  | waiting
  | checking
  /-- it has found the shutdown not requested, and does not look again -/
  | starting
  /-- inside the call that deletes stale ids -/
  | deleting
  | entering
  /-- inside the call that brings the indexes up to date -/
  | updating
  | confirming (how : MaintenanceEnd)
  | ended (how : MaintenanceEnd)
deriving DecidableEq, Repr

/-- a maintenance task and the promise that it resolves -/
structure Maintenance where
  promise : Nat
  stage : MaintenanceStage := .waiting
deriving DecidableEq, Repr

namespace Maintenance

def go (c : Cycle) (m : Maintenance) (stage : MaintenanceStage) (events : List Event) :
    Move (Progress Cycle Maintenance) :=
  .act { shared := c, self := { m with stage := stage }, events := events }

/-- the next move of a maintenance task; it waits with the token of the cycle -/
def next (c : Cycle) (m : Maintenance) : Move (Progress Cycle Maintenance) :=
  match m.stage with
  | .waiting =>
    match c.outcome.look c.lifecycle.isCancelled with
    | .value (.ok _) => go c m .checking []
    | .value (.error _) => go c m (.ended .buildFailed) []
    | .cancelled => go c m (.confirming .abandoned) []
    | .nothing => .blocked
  | .checking =>
    if c.isShutdownRequested then go c m (.confirming .skipped) [] else go c m .starting []
  | .starting => go c m .deleting [.entered .deleteStaleIds]
  | .deleting =>
    .awaiting .deleteStaleIds fun
      | .returned () => { shared := c, self := { m with stage := .entering } }
      | .panicked p => { shared := c, self := { m with stage := .confirming (.caught p) } }
  | .entering => go c m .updating [.entered .bringUpToDate]
  | .updating =>
    .awaiting .bringUpToDate fun
      | .returned () => { shared := c, self := { m with stage := .confirming .passed } }
      | .panicked p => { shared := c, self := { m with stage := .confirming (.caught p) } }
  | .confirming how =>
    .act { shared := c.resolveConfirmation m.promise, self := { m with stage := .ended how } }
  | .ended _ => .blocked

end Maintenance

end IndexCoordinator
