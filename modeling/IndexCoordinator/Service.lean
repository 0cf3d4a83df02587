import IndexCoordinator.Cycle

/-!
# The service: its cells

The service has one current cycle, which answers all lookups, and at most one pending cycle, which
takes its place once its build has ended.  The pending slot is under a lock, which also serializes
changes of cycles and the shutdown.

Cycles are known by their position in `Coordinator.cycles`, where every cycle ever made stays.
-/

namespace IndexCoordinator

structure Service where
  clock : CycleClock := {}
  current : Nat := 0
  pending : Option Nat := none
  /-- someone holds the lock of the pending slot -/
  locked : Bool := false
  shutDown : Bool := false
deriving DecidableEq, Repr

/-- the cells of one service and of every cycle that it ever made -/
structure Coordinator where
  settings : IndexingSettings
  cycles : List Cycle := []
  service : Service := {}

namespace Coordinator

def cycle? (w : Coordinator) (i : Nat) : Option Cycle := w.cycles[i]?

def setCycle (w : Coordinator) (i : Nat) (c : Cycle) : Coordinator :=
  { w with cycles := w.cycles.set i c }

def addCycle (w : Coordinator) (generation : Nat) : Coordinator :=
  { w with cycles := w.cycles ++ [.ofGeneration w.settings generation] }

/-- the cells when a service starts: one cycle, whose build is not submitted yet -/
def start (settings : IndexingSettings) : Coordinator :=
  let (clock, generation) := ({} : CycleClock).advance
  { settings, cycles := [.ofGeneration settings generation], service := { clock, current := 0 } }

def current? (w : Coordinator) : Option Cycle := w.cycle? w.service.current

def pending? (w : Coordinator) : Option Cycle := w.service.pending.bind w.cycle?

def debug (w : Coordinator) : String :=
  let current := (w.current?.map Cycle.debug).getD ""
  let pending := match w.pending? with
    | some c => "Some(" ++ toString c.generation ++ ")"
    | none => "None"
  "IndexingService \x7b current: " ++ current ++ ", pending: " ++ pending ++ ", shut_down: " ++
    toString w.service.shutDown ++ ", .. \x7d"

theorem length_setCycle (w : Coordinator) (i : Nat) (c : Cycle) :
    (w.setCycle i c).cycles.length = w.cycles.length := by simp [setCycle]

theorem cycle?_setCycle_ne (w : Coordinator) {i j : Nat} (c : Cycle) (h : i ≠ j) :
    (w.setCycle i c).cycle? j = w.cycle? j := by
  simp [setCycle, cycle?, h]

end Coordinator

end IndexCoordinator
