import IndexCoordinator.Cycle.Genesis
import IndexCoordinator.Cycle.Waiting

/-!
# Work on one cycle

Everything that runs on the cells of one cycle: its background tasks and the calls of its callers.
`Work.next` is the next move of any of them; a run of one cycle interleaves such moves.
-/

namespace IndexCoordinator

inductive Submission where
  | claiming
  | advancing
  | spawning
deriving DecidableEq, Repr

/-- the next move of a submission; the result is whether the build is to be started -/
def Submission.next (c : Cycle) : Submission → Cycle × Turn Submission Bool
  | .claiming =>
    if c.buildSubmitted then (c, .stop false)
    else ({ c with buildSubmitted := true }, .go .advancing)
  | .advancing => (c.advance .extensionsLoading, .go .spawning)
  | .spawning => (c, .stop true)

/-- where a call on one cycle stands -/
inductive CycleCall where
  | submitting (s : Submission)
  | ensuring (e : Ensure)
  | resettingHints (b : Rebuild)
  | markingInitialized (b : Rebuild)
  /-- a marking that has installed its evaluator -/
  | marked
  | loadingExtensions
  | settingState (configuration : IndexConfiguration)
  | awaitingConfiguration (a : Await)
  | pollingConfiguration (p : Poll)
  | awaitingInitialized (a : Await)
  | awaitingAll (a : AwaitAll)
  | shuttingDown (s : Shutdown)
  /-- about to look up the update task of an index -/
  | locating (index : IndexId) (documents : List UnsavedDocument)
  /-- a batch on its way, with the answer for its success -/
  | updating (batch : Batch) (success : Reply)
  | requiring (file : IndexedFile)
  | viewing (fileType : FileType)
  | findingTask (index : IndexId)

/-- a process on one cycle -/
inductive Work where
  | genesis (g : Genesis)
  | maintenance (m : Maintenance)
  | call (c : CycleCall)
  | ended (reply : Reply)

namespace CycleCall

/-- one progress of a call, made of new cells and a new position -/
abbrev Part := Progress Cycle Work

def stay (c : Cycle) (call : CycleCall) : Move Part := .act { shared := c, self := .call call }

def stop (c : Cycle) (reply : Reply) : Move Part := .act { shared := c, self := .ended reply }

/-- the reply to a wait that only says whether it succeeded -/
def waited : Except IndexError Unit → Reply
  | .ok () => .done
  | .error e => .failed e

def awaited : ConfigurationResult → Reply
  | .ok cfg => .configuration cfg
  | .error e => .failed e

def updated (success : Reply) : BatchEnd → Reply
  | .completed => success
  | .cancelled => .failed .cancelled
  | .unwound p => .panicked p

/-- the reply of a trial, whose notes are events -/
def tried {α : Type} (c : Cycle) (t : Trial α) (f : α → Reply) : Move Part :=
  .act {
    shared := c
    self := .ended (match t.outcome with
      | .returned a => f a
      | .panicked p => .panicked p)
    events := t.notes.map .noted }

def next (fired : Bool) (c : Cycle) : CycleCall → Move Part
  | .submitting s =>
    match s.next c with
    | (c, .go s) => stay c (.submitting s)
    | (c, .stop true) =>
      .act { shared := c, self := .ended .done, spawned := [.genesis .spawned] }
    | (c, .stop false) => stop c .done
  | .ensuring e =>
    match e.next c with
    | (c, .go e) => stay c (.ensuring e)
    | (c, .stop k) =>
      .act { shared := c, self := .ended .done, spawned := [.maintenance { promise := k }] }
  | .resettingHints b =>
    (b.next c).map fun p =>
      { shared := p.shared
        self := match p.self with
          | .go b => .call (.resettingHints b)
          | .stop (.returned _) => .ended .done
          | .stop (.panicked p) => .ended (.panicked p)
        events := p.events }
  | .markingInitialized b =>
    (b.next c).map fun p =>
      { shared := p.shared
        self := match p.self with
          | .go b => .call (.markingInitialized b)
          | .stop (.returned true) => .call .marked
          | .stop (.returned false) => .ended .done
          | .stop (.panicked p) => .ended (.panicked p)
        events := p.events }
  | .marked => stop (c.advance .initialized) .done
  | .loadingExtensions => stop (c.advance .extensionsLoaded) .done
  | .settingState cfg => stop { c with state := some cfg } .done
  | .awaitingConfiguration a =>
    match a.next fired c with
    | none => .blocked
    | some (c, .go a) => stay c (.awaitingConfiguration a)
    | some (c, .stop r) => stop c (awaited r)
  | .pollingConfiguration p =>
    match p.next fired c with
    | none => .blocked
    | some (c, .go p) => stay c (.pollingConfiguration p)
    | some (c, .stop r) => stop c (awaited r)
  | .awaitingInitialized a =>
    match a.next fired c with
    | none => .blocked
    | some (c, .go a) => stay c (.awaitingInitialized a)
    | some (c, .stop r) => stop c (waited (r.map fun _ => ()))
  | .awaitingAll a =>
    match a.next fired c with
    | none => .blocked
    | some (c, .go a) => stay c (.awaitingAll a)
    | some (c, .stop r) => stop c (waited r)
  | .shuttingDown s =>
    match s.next c.lifecycle with
    | (l, .go s) => stay { c with lifecycle := l } (.shuttingDown s)
    | (l, .stop won) => stop { c with lifecycle := l } (.flag won)
  | .locating index documents =>
    match c.updateTask? index with
    | none => stop c (.flag false)
    | some task => stay c (.updating (.ofDocuments task.index documents) (.flag true))
  | .updating b success =>
    match b.result? with
    | some r => stop c (updated success r)
    | none =>
      (b.next fired (c.inFlightOf b.index)).map fun p =>
        { shared := c.setInFlight b.index p.shared
          self := .call (.updating p.self success)
          events := p.events }
  | .requiring file =>
    match c.evaluator with
    | none => stop c (.failed .notInitialized)
    | some e => tried c (e.requiredIndexes file) .ids
  | .viewing t =>
    match c.evaluator with
    | none => stop c (.failed .notInitialized)
    | some e => stop c (.views (e.requiredForType t).1 (e.requiredForType t).2)
  | .findingTask index => stop c (.task (c.updateTask? index))

end CycleCall

namespace Work

def next : Program Cycle Work
  | _, c, .genesis g =>
    (g.next c).map fun p =>
      { shared := p.shared
        self := .genesis p.self.1
        spawned := p.self.2.map .maintenance
        events := p.events }
  | _, c, .maintenance m => (m.next c).map fun p => p.map id .maintenance
  | fired, c, .call k => k.next fired c
  | _, _, .ended _ => .blocked

def reply? : Work → Option Reply
  | .ended r => some r
  | _ => none

end Work

end IndexCoordinator
