import IndexCoordinator.Cycle.Work
import IndexCoordinator.Service

/-!
# Jobs: everything that runs under the service

A change of the extensions makes a new pending cycle, a promotion task waits for its build and
makes it current, a shutdown clears both slots and disposes of storage, and lookups go to the
current cycle without the lock.  `Job.next` is the next move of any of these and of the work on any
cycle; moves inside the lock are moves of their own, since lookups do not heed it.
-/

namespace IndexCoordinator

inductive Change where
  | acquiring
  | checking
  /-- the service is shut down: about to give the lock back -/
  | refusing
  | creating
  | submitting (next : Nat) (s : Submission)
  | replacing (next : Nat)
  /-- shutting down the cycle that was pending before -/
  | superseding (next old : Nat) (s : Shutdown)
  | releasing (next : Nat)
  | spawning (next : Nat)
deriving DecidableEq, Repr

inductive Promotion where
  | waiting
  | acquiring
  | comparing
  | swapping
  /-- shutting down the cycle that was current before -/
  | retiring (previous : Nat) (s : Shutdown)
  | releasing
deriving DecidableEq, Repr

inductive Closing where
  | acquiring
  | claiming
  /-- another call has the claim: about to give the lock back -/
  | refusing
  | taking
  | abandoning (pending : Nat) (s : Shutdown)
  | loading
  | retiring (current : Nat) (s : Shutdown)
  | entering
  /-- inside the call that disposes of storage -/
  | disposing
  | releasing
  | unwinding (payload : PanicPayload)
deriving DecidableEq, Repr

inductive PendingWait where
  | looking
  | checking
  | loading
deriving DecidableEq, Repr

/-- a process under the service -/
inductive Job where
  /-- on one cycle -/
  | work (cycle : Nat) (w : Work)
  | changing (s : Change)
  | promoting (next : Nat) (s : Promotion)
  | closing (s : Closing)
  | awaitingPending (s : PendingWait)
  /-- a call for the current cycle, before the look at the flag -/
  | lookingUp (call : CycleCall)
  /-- a call for the current cycle, after the look at the flag -/
  | loading (call : CycleCall)
  | ended (reply : Reply)

namespace Job

abbrev Part := Progress Coordinator Job

def go (w : Coordinator) (j : Job) : Move Part := .act { shared := w, self := j }

def setService (w : Coordinator) (s : Service) : Coordinator := { w with service := s }

def lock (w : Coordinator) : Coordinator := setService w { w.service with locked := true }

def unlock (w : Coordinator) : Coordinator := setService w { w.service with locked := false }

def acquire (w : Coordinator) (j : Job) : Move Part :=
  if w.service.locked then .blocked else go (lock w) j

def shut (w : Coordinator) (i : Nat) (s : Shutdown) (again : Shutdown → Job) (after : Job) :
    Move Part :=
  match w.cycle? i with
  | none => go w after
  | some c =>
    match s.next c.lifecycle with
    | (l, .go s) => go (w.setCycle i { c with lifecycle := l }) (again s)
    | (l, .stop _) => go (w.setCycle i { c with lifecycle := l }) after

def nextChange (w : Coordinator) : Change → Move Part
  | .acquiring => acquire w (.changing .checking)
  | .checking => go w (.changing (if w.service.shutDown then .refusing else .creating))
  | .refusing => go (unlock w) (.ended (.failed .shutDown))
  | .creating =>
    let (clock, generation) := w.service.clock.advance
    let w' := setService (w.addCycle generation) { w.service with clock := clock }
    go w' (.changing (.submitting w.cycles.length .claiming))
  | .submitting next s =>
    match w.cycle? next with
    | none => .blocked
    | some c =>
      match s.next c with
      | (c, .go s) => go (w.setCycle next c) (.changing (.submitting next s))
      | (c, .stop started) =>
        .act {
          shared := w.setCycle next c
          self := .changing (.replacing next)
          spawned := if started then [.work next (.genesis .spawned)] else [] }
  | .replacing next =>
    go (setService w { w.service with pending := some next })
      (.changing (match w.service.pending with
        | some old => .superseding next old .claiming
        | none => .releasing next))
  | .superseding next old s =>
    shut w old s (fun s => .changing (.superseding next old s)) (.changing (.releasing next))
  | .releasing next => go (unlock w) (.changing (.spawning next))
  | .spawning next =>
    .act { shared := w, self := .ended (.cycle next), spawned := [.promoting next .waiting] }

/-- the next move of a promotion; it waits with the token of the cycle it promotes -/
def nextPromotion (w : Coordinator) (next : Nat) : Promotion → Move Part
  | .waiting =>
    match w.cycle? next with
    | none => .blocked
    | some c =>
      match c.outcome.look c.lifecycle.isCancelled with
      | .value _ => go w (.promoting next .acquiring)
      | .cancelled => go w (.ended .done)
      | .nothing => .blocked
  | .acquiring => acquire w (.promoting next .comparing)
  | .comparing =>
    if w.service.pending = some next then
      go (setService w { w.service with pending := none }) (.promoting next .swapping)
    else go w (.promoting next .releasing)
  | .swapping =>
    go (setService w { w.service with current := next })
      (.promoting next (.retiring w.service.current .claiming))
  | .retiring previous s =>
    shut w previous s (fun s => .promoting next (.retiring previous s))
      (.promoting next .releasing)
  | .releasing => go (unlock w) (.ended .done)

def nextClosing (w : Coordinator) : Closing → Move Part
  | .acquiring => acquire w (.closing .claiming)
  | .claiming =>
    if w.service.shutDown then go w (.closing .refusing)
    else go (setService w { w.service with shutDown := true }) (.closing .taking)
  | .refusing => go (unlock w) (.ended (.flag false))
  | .taking =>
    go (setService w { w.service with pending := none })
      (.closing (match w.service.pending with
        | some old => .abandoning old .claiming
        | none => .loading))
  | .abandoning old s =>
    shut w old s (fun s => .closing (.abandoning old s)) (.closing .loading)
  | .loading => go w (.closing (.retiring w.service.current .claiming))
  | .retiring current s =>
    shut w current s (fun s => .closing (.retiring current s)) (.closing .entering)
  | .entering => .act { shared := w, self := .closing .disposing, events := [.entered .dispose] }
  | .disposing =>
    .awaiting .dispose fun
      | .returned () => { shared := w, self := .closing .releasing }
      | .panicked p => { shared := w, self := .closing (.unwinding p) }
  | .releasing => go (unlock w) (.ended (.flag true))
  | .unwinding p => go (unlock w) (.ended (.panicked p))

def nextPendingWait (fired : Bool) (w : Coordinator) : PendingWait → Move Part
  | .looking =>
    if w.service.locked then .blocked
    else match w.service.pending with
      | none => go w (.awaitingPending .checking)
      | some _ => if fired then go w (.ended (.failed .cancelled)) else .blocked
  | .checking =>
    go w (if w.service.shutDown then .ended (.failed .shutDown) else .awaitingPending .loading)
  | .loading => go w (.ended (.cycle w.service.current))

def next : Program Coordinator Job
  | fired, w, .work i k =>
    match w.cycle? i with
    | none => .blocked
    | some c => (k.next fired c).map fun p => p.map (w.setCycle i) (.work i)
  | _, w, .changing s => nextChange w s
  | _, w, .promoting next s => nextPromotion w next s
  | _, w, .closing s => nextClosing w s
  | fired, w, .awaitingPending s => nextPendingWait fired w s
  | _, w, .lookingUp call =>
    go w (if w.service.shutDown then .ended (.failed .shutDown) else .loading call)
  | _, w, .loading call => go w (.work w.service.current (.call call))
  | _, _, .ended _ => .blocked

def reply? : Job → Option Reply
  | .work _ w => w.reply?
  | .ended r => some r
  | _ => none

end Job

end IndexCoordinator
