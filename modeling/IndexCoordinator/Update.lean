import IndexCoordinator.File
import IndexCoordinator.Interleaving

/-!
# Updates of unsaved documents

Every index that reads content has a map of the documents in flight, with the stamp of the pass in
progress.  A batch claims a document in that map before it asks storage to index it, and drops the
claim afterwards, also when storage panics.

* first, the documents of the batch are visited in order: a free one is claimed and indexed, and
  for a busy one the stamp of the pass in progress is remembered;
* then the batch looks at its busy documents again and again: what is no longer in flight is
  claimed and indexed, unless a pass at a stamp at least as new was seen.

A look that leaves everything as it is means going on to wait.
-/

namespace IndexCoordinator

/-- the documents in flight, with the stamp of the pass in progress -/
abbrev InFlight := List (DocumentId × Stamp)

namespace InFlight

def stamp? (m : InFlight) (d : DocumentId) : Option Stamp := m.lookup d

/-- take a document in; an entry that is there is replaced -/
def insert (m : InFlight) (d : DocumentId) (s : Stamp) : InFlight :=
  (d, s) :: m.filter fun e => !(e.1 == d)

def erase (m : InFlight) (d : DocumentId) : InFlight := m.filter fun e => !(e.1 == d)

end InFlight

/-- a busy document of a batch, and the newest stamp seen in flight for it -/
structure BusyEntry where
  document : UnsavedDocument
  covered : Stamp
deriving DecidableEq, Repr

inductive BatchEnd where
  | completed
  | cancelled
  | unwound (payload : PanicPayload)
deriving DecidableEq, Repr

inductive BatchStage where
  /-- about to look at its token and turn to the next document -/
  | visiting
  /-- about to claim a document -/
  | claiming (document : UnsavedDocument)
  /-- about to ask storage to index a document, and others of this round after it -/
  | entering (document : UnsavedDocument) (rest : List UnsavedDocument)
  /-- inside that call -/
  | indexing (document : UnsavedDocument) (rest : List UnsavedDocument)
  /-- dropping its claims, perhaps while unwinding -/
  | releasing (panic : Option PanicPayload)
  /-- about to look at its busy documents -/
  | looking
  /-- waiting until some pass ends -/
  | waiting
  | ended (result : BatchEnd)
deriving DecidableEq, Repr

/-- a batch of documents on its way through one index -/
structure Batch where
  index : IndexId
  /-- documents not visited yet -/
  todo : List UnsavedDocument
  busy : List BusyEntry := []
  /-- documents that this batch holds in flight, in the order in which they are dropped -/
  claims : List UnsavedDocument := []
  stage : BatchStage := .visiting
deriving DecidableEq, Repr

namespace Batch

def ofDocuments (index : IndexId) (documents : List UnsavedDocument) : Batch :=
  { index, todo := documents }

def single (index : IndexId) (document : UnsavedDocument) : Batch :=
  { index, todo := [], stage := .entering document [] }

/-- look at busy documents from the left: what is in flight stays busy, what is not is claimed
unless it was covered.  The result is the map, what stays busy, and what was claimed. -/
def sweep : InFlight → List BusyEntry → InFlight × List BusyEntry × List UnsavedDocument
  | m, [] => (m, [], [])
  | m, e :: rest =>
    match m.stamp? e.document.id with
    | some s =>
      let r := sweep m rest
      (r.1, { e with covered := max e.covered s } :: r.2.1, r.2.2)
    | none =>
      if e.covered < e.document.stamp then
        let r := sweep (m.insert e.document.id e.document.stamp) rest
        (r.1, r.2.1, e.document :: r.2.2)
      else sweep m rest

/-- the section in which a batch looks at its busy documents -/
def look (fired : Bool) (m : InFlight) (b : Batch) : InFlight × Batch :=
  match sweep m b.busy with
  | (m', busy, d :: ready) =>
    (m', { b with busy := busy, claims := d :: ready, stage := .entering d ready })
  | (m', [], []) => (m', { b with busy := [], stage := .ended .completed })
  | (m', busy, []) =>
    if fired then (m', { b with busy := busy, stage := .ended .cancelled })
    else (m', { b with busy := busy, stage := .waiting })

def go (m : InFlight) (b : Batch) (events : List Event) : Move (Progress InFlight Batch) :=
  .act { shared := m, self := b, events := events }

def afterIndexing (b : Batch) : List UnsavedDocument → Outcome Unit → Batch
  | _, .panicked p => { b with stage := .releasing (some p) }
  | [], .returned () => { b with stage := .releasing none }
  | d :: rest, .returned () => { b with stage := .entering d rest }

def next : Program InFlight Batch := fun fired m b =>
  match b.stage with
  | .visiting =>
    match b.todo with
    | [] => go m { b with stage := if b.busy.isEmpty then .ended .completed else .looking } []
    | d :: rest =>
      if fired then go m { b with stage := .ended .cancelled } []
      else go m { b with todo := rest, stage := .claiming d } []
  | .claiming d =>
    match m.stamp? d.id with
    | some s => go m { b with busy := b.busy ++ [⟨d, s⟩], stage := .visiting } []
    | none =>
      go (m.insert d.id d.stamp) { b with claims := [d], stage := .entering d [] } []
  | .entering d rest =>
    go m { b with stage := .indexing d rest } [.entered (.indexUnsaved b.index d)]
  | .indexing d rest =>
    .awaiting (.indexUnsaved b.index d) fun a => { shared := m, self := b.afterIndexing rest a }
  | .releasing panic =>
    match b.claims with
    | d :: claims => go (m.erase d.id) { b with claims := claims } []
    | [] =>
      match panic with
      | some p => go m { b with stage := .ended (.unwound p) } []
      | none => go m { b with stage := .visiting } []
  | .looking => let r := b.look fired m; go r.1 r.2 []
  | .waiting =>
    let r := b.look fired m
    if r = (m, b) then .blocked else go r.1 r.2 []
  | .ended _ => .blocked

def result? (b : Batch) : Option BatchEnd :=
  match b.stage with
  | .ended r => some r
  | _ => none

theorem sweep_nil (m : InFlight) : sweep m [] = (m, [], []) := rfl

theorem length_busy_sweep (m : InFlight) (es : List BusyEntry) :
    (sweep m es).2.1.length ≤ es.length := by
  induction es generalizing m with
  | nil => simp [sweep]
  | cons e rest ih =>
    unfold sweep
    cases m.stamp? e.document.id with
    | some s => simpa using ih m
    | none =>
      by_cases h : e.covered < e.document.stamp
      · simpa [h] using Nat.le_succ_of_le (ih _)
      · simpa [h] using Nat.le_succ_of_le (ih m)

end Batch

end IndexCoordinator
