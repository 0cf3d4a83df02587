import IndexCoordinator.Datum
import IndexCoordinator.Interleaving

/-!
# Collaborators that do as they are told

On a bench the collaborators answer from tables that can be changed at any time.  `answer` is what
they say to a request at the moment the request is let through, and a `Gate` is a place where
requests of a kind can be held up before that.
-/

namespace IndexCoordinator.Bench

/-- what a listing of the descriptors answers -/
inductive Listing where
  | descriptors (list : List IndexDescriptor)
  | fails (message : String)
  | panics (payload : PanicPayload)

inductive MaintenanceCall where
  | stale
  | upToDate
  | dispose
deriving DecidableEq, Repr

/-- what the collaborators answer -/
structure Collaborators where
  listing : Listing := .descriptors []
  fileTypes : Outcome (List FileType) := .returned []
  /-- the indexes that storage fails to open; this wins over a panic -/
  failOpen : List (IndexId × String) := []
  panicOpen : List (IndexId × Datum) := []
  panicMaintenance : List (MaintenanceCall × PanicPayload) := []

def payloadOf : Datum → PanicPayload
  | .text s => .text s
  | _ => .other

/-- the start of a document text that makes storage panic with the rest of the text -/
def panicMark : String := "!panic:"

def indexOutcome (text : String) : Outcome Unit :=
  let cs := text.toList
  let mark := panicMark.toList
  if mark.isPrefixOf cs then .panicked (.text (String.ofList (cs.drop mark.length)))
  else .returned ()

namespace Collaborators

def maintenance (c : Collaborators) (k : MaintenanceCall) : Outcome Unit :=
  match c.panicMaintenance.lookup k with
  | some p => .panicked p
  | none => .returned ()

def answer (c : Collaborators) : (r : Request) → Outcome r.Answer
  | .listDescriptors =>
    match c.listing with
    | .descriptors list => .returned (.ok list)
    | .fails message => .returned (.error ⟨message⟩)
    | .panics p => .panicked p
  | .openIndex d =>
    match c.failOpen.lookup d.id with
    | some message => .returned (.error ⟨message⟩)
    | none =>
      match c.panicOpen.lookup d.id with
      | some message => .panicked (payloadOf message)
      | none => .returned (.ok ())
  | .registeredFileTypes => c.fileTypes
  | .indexUnsaved _ document => indexOutcome document.text
  | .deleteStaleIds => c.maintenance .stale
  | .bringUpToDate => c.maintenance .upToDate
  | .dispose => c.maintenance .dispose

end Collaborators

/-- a place where requests can be held -/
inductive Gate where
  | listing
  | opening
  | unsaved
  | maintenance
deriving DecidableEq, Repr

def gateOf : Request → Option Gate
  | .listDescriptors => some .listing
  | .openIndex _ => some .opening
  | .indexUnsaved _ _ => some .unsaved
  | .bringUpToDate => some .maintenance
  | _ => none

/-- a request held at a gate: the process that made it, and what it is sorted by -/
structure Held where
  proc : Nat
  gate : Gate
  key : Nat × Nat := (0, 0)
deriving DecidableEq, Repr

/-- documents are held in order of id and stamp, all else in order of arrival -/
def holdKey : Request → Nat × Nat
  | .indexUnsaved _ d => (d.id, d.stamp)
  | _ => (0, 0)

def keyLe (a b : Held) : Bool :=
  decide (a.key.1 < b.key.1) || (a.key.1 == b.key.1 && decide (a.key.2 ≤ b.key.2))

structure Counts where
  /-- listings that were begun -/
  listed : Nat := 0
  /-- deletions of stale ids that were begun -/
  stale : Nat := 0
  /-- updates that were let through -/
  upToDate : Nat := 0
  /-- disposals that were begun -/
  disposed : Nat := 0
deriving DecidableEq, Repr

namespace Counts

def add (c : Counts) : Event → Counts
  | .entered .listDescriptors => { c with listed := c.listed + 1 }
  | .entered .deleteStaleIds => { c with stale := c.stale + 1 }
  | .left .bringUpToDate _ => { c with upToDate := c.upToDate + 1 }
  | .entered .dispose => { c with disposed := c.disposed + 1 }
  | _ => c

def ofTrace (events : List Event) : Counts := events.foldl add {}

end Counts

inductive LogEntry where
  | opened (index : IndexDescriptor)
  | indexed (index : IndexId) (document : UnsavedDocument)
  | ran (tag : Datum)
  | body (tag : Datum)
  | noted (message : String)

def LogEntry.ofEvent : Event → Option LogEntry
  | .left (.openIndex d) .completed => some (.opened d)
  | .left (.indexUnsaved i d) .completed => some (.indexed i d)
  | .ran tag => some (.ran tag)
  | .body tag => some (.body tag)
  | .noted m => some (.noted m)
  | _ => none

end IndexCoordinator.Bench
