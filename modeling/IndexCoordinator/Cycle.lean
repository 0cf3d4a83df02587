import IndexCoordinator.Configuration
import IndexCoordinator.Evaluator
import IndexCoordinator.Lifecycle
import IndexCoordinator.Promise
import IndexCoordinator.Settings
import IndexCoordinator.Update

/-!
# One indexing cycle: its cells

A cycle owns everything that is derived from the registered descriptors: the registry, the
configuration built from it, the evaluator, and two promises, one for the build and one for the
confirmation that every loaded index is current.  The confirmation is asked for again and again;
`confirmations` keeps every promise that was ever made for it and `slot` says which one is current.

The cells are published one after the other and without a common lock.
-/

namespace IndexCoordinator

abbrev BuildOutcome := Except BuildError IndexConfiguration

/-- the shared cells of one cycle -/
structure Cycle where
  settings : IndexingSettings
  lifecycle : Lifecycle
  buildSubmitted : Bool := false
  registry : Option Registry := none
  /-- the configuration as lookups see it -/
  state : Option IndexConfiguration := none
  /-- the promise of the build -/
  outcome : Promise BuildOutcome := {}
  confirmations : List (Promise Unit) := [{}]
  slot : Nat := 0
  evaluator : Option Evaluator := none
  /-- the documents in flight, by index -/
  inFlight : List (IndexId × InFlight) := []

namespace Cycle

def ofGeneration (settings : IndexingSettings) (generation : Nat) : Cycle :=
  { settings, lifecycle := .ofGeneration generation }

def generation (c : Cycle) : Nat := c.lifecycle.generation

def phase (c : Cycle) : Phase := c.lifecycle.phase

def isShutdownRequested (c : Cycle) : Bool := c.lifecycle.isShutdownRequested

def isInitialized (c : Cycle) : Bool := decide (Phase.initialized ≤ c.phase)

def isExtensionsDataLoaded (c : Cycle) : Bool := decide (Phase.extensionsLoaded ≤ c.phase)

def advance (c : Cycle) (target : Phase) : Cycle :=
  { c with lifecycle := c.lifecycle.advance target }

def confirmation (c : Cycle) (k : Nat) : Promise Unit := c.confirmations.getD k {}

def resolveConfirmation (c : Cycle) (k : Nat) : Cycle :=
  { c with confirmations := c.confirmations.modify k fun p => p.resolve () }

/-- whether the build has ended and the current confirmation was given -/
def areIndexesReady (c : Cycle) : Bool := c.outcome.done && (c.confirmation c.slot).done

def isContentDependent (c : Cycle) (id : IndexId) : Bool :=
  c.registry.any fun r => r.isContentDependent id

def updateTask? (c : Cycle) (id : IndexId) : Option DocumentUpdateTask :=
  c.registry.bind fun r => r.updateTask? id

def inFlightOf (c : Cycle) (id : IndexId) : InFlight := (c.inFlight.lookup id).getD []

def setInFlight (c : Cycle) (id : IndexId) (m : InFlight) : Cycle :=
  { c with inFlight := (id, m) :: c.inFlight.filter fun e => !(e.1 == id) }

def debug (c : Cycle) : String :=
  "RegisteredIndexes \x7b generation: " ++ toString c.generation ++ ", phase: " ++ c.phase.name ++
    ", shutdown: " ++ toString c.isShutdownRequested ++ ", ready: " ++
    toString c.areIndexesReady ++ ", .. \x7d"

@[simp] theorem inFlightOf_setInFlight (c : Cycle) (id : IndexId) (m : InFlight) :
    (c.setInFlight id m).inFlightOf id = m := by
  simp [inFlightOf, setInFlight]

end Cycle

/-- what a caller of the coordinator is answered -/
inductive Reply where
  | done
  | flag (value : Bool)
  | configuration (c : IndexConfiguration)
  | ids (ids : List IndexId)
  | views (run excluded : List IndexId)
  | task (t : Option DocumentUpdateTask)
  /-- one of the cycles, by its position -/
  | cycle (position : Nat)
  | failed (e : IndexError)
  | panicked (p : PanicPayload)

end IndexCoordinator
