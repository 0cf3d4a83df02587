import IndexCoordinator.Datum
import IndexCoordinator.Promise.Meeting
import IndexCoordinator.Service.Job

/-!
# Everything that runs on a bench

A bench has a coordinator for every service that was started, the jobs of which go on when another
is started, promises and lifecycles of their own, and background tasks that only leave a mark.
-/

namespace IndexCoordinator.Bench

/-- all shared cells of a bench -/
structure Floor where
  /-- first one without a service, for cycles of their own; then one for every service -/
  coordinators : List Coordinator
  promises : List (Meeting Datum) := []
  lifecycles : List Lifecycle := []

/-- where a cycle is -/
structure CyclePlace where
  coordinator : Nat
  position : Nat
deriving DecidableEq, Repr

namespace Floor

def coordinator? (f : Floor) (h : Nat) : Option Coordinator := f.coordinators[h]?

def setCoordinator (f : Floor) (h : Nat) (w : Coordinator) : Floor :=
  { f with coordinators := f.coordinators.set h w }

def cycle? (f : Floor) (place : CyclePlace) : Option Cycle :=
  (f.coordinator? place.coordinator).bind fun w => w.cycle? place.position

end Floor

/-- a process on a bench -/
inductive Actor where
  | job (coordinator : Nat) (j : Job)
  | visit (promise : Nat) (v : Meeting.Visit Datum)
  | lifecycle (position : Nat) (call : LifecycleCall)
  /-- a background task that leaves a mark, or panics unseen before it does -/
  | task (tag : Datum) (panics : Bool)
  | over

namespace Actor

def next : Program Floor Actor
  | fired, f, .job h j =>
    match f.coordinator? h with
    | none => .blocked
    | some w => (j.next fired w).map fun p => p.map (f.setCoordinator h) (.job h)
  | fired, f, .visit k v =>
    match f.promises[k]? with
    | none => .blocked
    | some m =>
      (Meeting.next fired m v).map fun p =>
        p.map (fun m => { f with promises := f.promises.set k m }) (.visit k)
  | fired, f, .lifecycle k call =>
    match f.lifecycles[k]? with
    | none => .blocked
    | some l =>
      (call.next fired l).map fun p =>
        p.map (fun l => { f with lifecycles := f.lifecycles.set k l }) (.lifecycle k)
  | _, f, .task tag panics =>
    .act { shared := f, self := .over, events := if panics then [] else [.ran tag] }
  | _, _, .over => .blocked

inductive Result where
  /-- the reply of a job of a coordinator -/
  | reply (coordinator : Nat) (r : Reply)
  | met (r : Meeting.Result Datum)
  | advanced (previous : Phase)
  | won (flag : Bool)
  | unwound (payload : PanicPayload)

def result? : Actor → Option Result
  | .job h j => j.reply?.map (.reply h)
  | .visit _ v => v.result?.map .met
  | .lifecycle _ (.advanced p) => some (.advanced p)
  | .lifecycle _ (.ended won) => some (.won won)
  | .lifecycle _ (.unwound p) => some (.unwound p)
  | .lifecycle _ (.cancelled won) => some (.won won)
  | _ => none

end Actor

end IndexCoordinator.Bench
