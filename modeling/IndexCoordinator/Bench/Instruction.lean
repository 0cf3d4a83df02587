import IndexCoordinator.Bench
import IndexCoordinator.TaskClass

/-!
# Instructions for a bench

A script drives a bench by instructions that call things by name.  An instruction is carried out
on behalf of the script itself, by a thread with a name, or by a future with a name; afterwards
everything moves until nothing can, and the futures are polled.
-/

namespace IndexCoordinator.Bench

/-- how a script calls a cycle -/
inductive CycleName where
  | named (name : String)
  | current
  | pending
deriving DecidableEq, Repr

/-- how a script calls a token; an absent token never fires -/
inductive TokenName where
  | absent
  | named (name : String)
  | shutdownOf (cycle : CycleName)
deriving DecidableEq, Repr

/-- what a script can ask for -/
inductive Instruction where
  | close (gate : Gate)
  | held (gate : Gate)
  | release (gate : Gate) (position : Nat)
  | openGate (gate : Gate)
  | listing (answer : Listing)
  | fileTypes (answer : Outcome (List FileType))
  | failOpen (index : IndexId) (message : String)
  | panicOpen (index : IndexId) (message : Datum)
  | panicMaintenance (call : MaintenanceCall) (payload : PanicPayload)
  | heal
  | token (name : String)
  | cancel (token : TokenName)
  | newCycle (name : String) (generation : Nat)
  | inspect (cycle : CycleName)
  | submitBuild (cycle : CycleName)
  | setState (cycle source : CycleName)
  | isContent (cycle : CycleName) (index : IndexId)
  | onCycle (cycle : CycleName) (call : CycleCall)
  | onCycleBy (name : String) (isFuture : Bool) (cycle : CycleName) (call : CycleCall)
      (token : TokenName)
  | keepEvaluator (name : String) (cycle : CycleName)
  | evaluate (evaluator : String) (file : IndexedFile)
  | isPrecomputed (evaluator : String) (fileType : FileType)
  /-- find an update task on a cycle or on the service, and keep it if a name is given -/
  | task (name : Option String) (cycle : Option CycleName) (index : IndexId)
  | batch (name task : String) (documents : List UnsavedDocument) (token : TokenName)
  | process (name task : String) (document : UnsavedDocument)
  | start
  | changed (name : String)
  | keepCurrent (name : String)
  | service
  | onService (call : CycleCall)
  | onServiceBy (name : String) (call : CycleCall) (token : TokenName)
  | waitPending (name : String) (token : TokenName)
  | shutdown
  | shutdownRace (callers : Nat)
  | promise (name : String) (value : Option Datum)
  | clonePromise (source name : String)
  | resolve (promise : String) (value : Datum)
  | promiseState (promise : String)
  | wait (name : String) (isFuture : Bool) (promise : String) (token : TokenName)
  | resolveRace (promise : String) (callers : Nat)
  | spawn (task : TaskClass) (tag : Datum) (panics : Bool)
  | clock (name : String)
  | advanceClock (clock : String)
  | cycleToken (name : String) (generation : Nat)
  | cloneCycleToken (source name : String)
  | cancelCycleToken (token : String)
  | cycleTokenState (token : String)
  | lifecycle (name : String) (generation : Nat)
  | onLifecycle (lifecycle : String) (call : LifecycleCall)
  | lifecycleState (lifecycle : String)
  | cancelLifecycle (lifecycle : String)
  | lifecycleRace (lifecycle : String) (callers : Nat)
  | comparePhases (a b : Phase)

inductive Answer where
  | nothing
  | started
  | flag (value : Bool)
  | count (n : Nat)
  | text (s : String)
  | datum (d : Datum)
  | ids (ids : List IndexId)
  | result (r : Actor.Result)
  | outcome (o : Option BuildOutcome)
  | cycle (c : Cycle)
  | service (w : Coordinator)
  | promise (p : Promise Datum)
  | cycleToken (t : CycleToken)
  | lifecycle (l : Lifecycle)
  | phases (a b : Phase)
  | panicked (p : PanicPayload)

/-- a bench and the names that a script has given; a later name hides an earlier one -/
structure Script where
  bench : Bench
  cycles : List (String × CyclePlace) := []
  tokens : List (String × Nat) := []
  /-- update tasks: the cycle and the index -/
  tasks : List (String × CyclePlace × IndexId) := []
  promises : List (String × Nat) := []
  lifecycles : List (String × Nat) := []
  clocks : List (String × Nat) := []
  cycleTokens : List (String × Nat) := []
  evaluators : List (String × Evaluator) := []

namespace Script

def currentPlace (s : Script) : Option CyclePlace :=
  match s.bench.service, s.bench.coordinator? with
  | some h, some w => some ⟨h, w.service.current⟩
  | _, _ => none

def pendingPlace (s : Script) : Option CyclePlace :=
  match s.bench.service, s.bench.coordinator? with
  | some h, some w => w.service.pending.map fun k => ⟨h, k⟩
  | _, _ => none

def cycleAt (s : Script) : CycleName → Option CyclePlace
  | .named name => s.cycles.lookup name
  | .current => s.currentPlace
  | .pending => s.pendingPlace

def cycle? (s : Script) (name : CycleName) : Option Cycle :=
  (s.cycleAt name).bind s.bench.floor.cycle?

def tokenRef (s : Script) : TokenName → Option TokenRef
  | .absent => none
  | .named name => (s.tokens.lookup name).map .own
  | .shutdownOf c => (s.cycleAt c).map .ofCycle

def now (s : Script) (a : Actor) : Script × Answer :=
  let (b, r) := s.bench.call a
  ({ s with bench := b }, match r with
    | some r => .result r
    | none => .nothing)

def handTo (s : Script) (name : String) (isFuture : Bool) (token : TokenName) (a : Actor) :
    Script × Answer :=
  ({ s with bench := s.bench.callBy name isFuture (s.tokenRef token) a }, .started)

/-- carry a call out several times and count the winners -/
def race (s : Script) (a : Actor) (wins : Actor.Result → Bool) : Nat → Script × Nat
  | 0 => (s, 0)
  | n + 1 =>
    let (b, r) := s.bench.call a
    let (s, k) := race { s with bench := b } a wins n
    (s, if r.any wins then k + 1 else k)

def ask (s : Script) (name : CycleName) (f : Cycle → Answer) : Script × Answer :=
  (s, match s.cycle? name with
    | some c => f c
    | none => .nothing)

def actorAt (place : CyclePlace) (call : CycleCall) : Actor :=
  .job place.coordinator (.work place.position (.call call))

def submit (s : Script) (place : CyclePlace) : Script :=
  { s with bench := (s.bench.call (actorAt place (.submitting .claiming))).1 }

def nowServing (s : Script) (j : Job) : Script × Answer :=
  match s.bench.service with
  | some h => s.now (.job h j)
  | none => (s, .nothing)

def tell (s : Script) (c : Collaborators) : Script :=
  { s with bench := { s.bench with collaborators := c } }

/-- change one of the bench's own promises or lifecycles, clocks or tokens -/
def setBench (s : Script) (b : Bench) : Script := { s with bench := b }

/-- add the notes of a check made by the script itself to the trace -/
def noting (s : Script) (notes : List String) : Script :=
  let run := s.bench.run
  s.setBench { s.bench with run := { run with trace := run.trace ++ notes.map .noted } }

def performTold (s : Script) : Instruction → Option (Script × Answer)
  | .close g => some (s.setBench { s.bench with closed := g :: s.bench.closed }, .nothing)
  | .held g => some (s, .count (s.bench.heldAt g).length)
  | .release g position =>
    some (match (s.bench.heldAt g)[position]? with
      | some h => (s.setBench (s.bench.letThrough h), .flag true)
      | none => (s, .flag false))
  | .openGate g => let (b, n) := s.bench.openGate g; some (s.setBench b, .count n)
  | .listing l => some (s.tell { s.bench.collaborators with listing := l }, .nothing)
  | .fileTypes o => some (s.tell { s.bench.collaborators with fileTypes := o }, .nothing)
  | .failOpen i message =>
    let c := s.bench.collaborators
    some (s.tell { c with failOpen := (i, message) :: c.failOpen },
      match c.failOpen.lookup i with
      | some m => .text m
      | none => .nothing)
  | .panicOpen i message =>
    let c := s.bench.collaborators
    some (s.tell { c with panicOpen := (i, message) :: c.panicOpen },
      match c.panicOpen.lookup i with
      | some m => .datum m
      | none => .nothing)
  | .panicMaintenance k p =>
    let c := s.bench.collaborators
    some (s.tell { c with panicMaintenance := (k, p) :: c.panicMaintenance }, .nothing)
  | .heal =>
    some (s.tell { s.bench.collaborators with
      failOpen := [], panicOpen := [], panicMaintenance := [] }, .nothing)
  | .token name =>
    some ({ s with
      bench := { s.bench with tokens := s.bench.tokens ++ [false] }
      tokens := (name, s.bench.tokens.length) :: s.tokens }, .nothing)
  | .cancel t =>
    some (match s.tokenRef t with
      | some (.own k) =>
        s.setBench { s.bench with tokens := s.bench.tokens.set k true }
      | some (.ofCycle place) =>
        let f := s.bench.floor
        match f.coordinator? place.coordinator, f.cycle? place with
        | some w, some c =>
          let w := w.setCycle place.position { c with lifecycle := c.lifecycle.cancel }
          s.setBench (s.bench.setFloor (f.setCoordinator place.coordinator w))
        | _, _ => s
      | none => s, .flag true)
  | _ => none

def performCycle (s : Script) : Instruction → Option (Script × Answer)
  | .newCycle name generation =>
    let f := s.bench.floor
    some (match f.coordinator? 0 with
      | some w =>
        let place : CyclePlace := ⟨0, w.cycles.length⟩
        let s := s.setBench (s.bench.setFloor (f.setCoordinator 0 (w.addCycle generation)))
        ({ s.submit place with cycles := (name, place) :: s.cycles }, .nothing)
      | none => (s, .nothing))
  | .inspect c => some (s.ask c .cycle)
  | .submitBuild c =>
    match s.cycleAt c with
    | none => some (s, .nothing)
    | some place => some ((s.submit place).ask c fun c => .outcome c.outcome.slot)
  | .setState c source =>
    match s.cycleAt c, (s.cycle? source).bind (·.state) with
    | some place, some cfg => some (s.now (actorAt place (.settingState cfg)))
    | _, _ => some (s, .nothing)
  | .isContent c i => some (s.ask c fun c => .flag (c.isContentDependent i))
  | .onCycle c call =>
    match s.cycleAt c with
    | some place => some (s.now (actorAt place call))
    | none => some (s, .nothing)
  | .onCycleBy name isFuture c call token =>
    match s.cycleAt c with
    | some place => some (s.handTo name isFuture token (actorAt place call))
    | none => some (s, .nothing)
  | .keepEvaluator name c =>
    match (s.cycle? c).bind (·.evaluator) with
    | some e => some ({ s with evaluators := (name, e) :: s.evaluators }, .text e.debug)
    | none => some (s, .nothing)
  | .evaluate name file =>
    match s.evaluators.lookup name with
    | none => some (s, .nothing)
    | some e =>
      let t := e.requiredIndexes file
      some (s.noting t.notes, match t.outcome with
        | .returned ids => .ids ids
        | .panicked p => .panicked p)
  | .isPrecomputed name t =>
    some (s, match s.evaluators.lookup name with
      | some e => .flag (e.isPrecomputed t)
      | none => .nothing)
  | .task name c i =>
    let place := s.cycleAt (c.getD .current)
    let (s, r) := match c, place with
      | none, _ => s.nowServing (.lookingUp (.findingTask i))
      | some _, some place => s.now (actorAt place (.findingTask i))
      | some _, none => (s, .nothing)
    some (match name, place, r with
      | some name, some place, .result (.reply _ (.task (some t))) =>
        ({ s with tasks := (name, place, t.index) :: s.tasks }, r)
      | _, _, _ => (s, r))
  | .batch name task documents token =>
    match s.tasks.lookup task with
    | some (place, i) =>
      some (s.handTo name false token
        (actorAt place (.updating (.ofDocuments i documents) .done)))
    | none => some (s, .nothing)
  | .process name task document =>
    match s.tasks.lookup task with
    | some (place, i) =>
      some (s.handTo name false .absent (actorAt place (.updating (.single i document) .done)))
    | none => some (s, .nothing)
  | _ => none

def hasWon : Actor.Result → Bool
  | .reply _ (.flag b) => b
  | .met .won => true
  | .won b => b
  | _ => false

def performService (s : Script) : Instruction → Option (Script × Answer)
  | .start =>
    let f := s.bench.floor
    let h := f.coordinators.length
    let f := { f with coordinators := f.coordinators ++ [.start s.bench.settings] }
    let s := s.setBench { s.bench.setFloor f with service := some h }
    some (s.submit ⟨h, 0⟩, .nothing)
  | .changed name =>
    let (s, r) := s.nowServing (.changing .acquiring)
    some (match r with
      | .result (.reply h (.cycle k)) => ({ s with cycles := (name, ⟨h, k⟩) :: s.cycles }, r)
      | _ => (s, r))
  | .keepCurrent name =>
    some (match s.currentPlace with
      | some place =>
        ({ s with cycles := (name, place) :: s.cycles },
          .result (.reply place.coordinator (.cycle place.position)))
      | none => (s, .nothing))
  | .service =>
    some (s, match s.bench.coordinator? with
      | some w => .service w
      | none => .nothing)
  | .onService call => some (s.nowServing (.lookingUp call))
  | .onServiceBy name call token =>
    some (match s.bench.service with
      | some h => s.handTo name false token (.job h (.lookingUp call))
      | none => (s, .nothing))
  | .waitPending name token =>
    some (match s.bench.service with
      | some h => s.handTo name false token (.job h (.awaitingPending .looking))
      | none => (s, .nothing))
  | .shutdown => some (s.nowServing (.closing .acquiring))
  | .shutdownRace n =>
    some (match s.bench.service with
      | some h => let (s, k) := s.race (.job h (.closing .acquiring)) hasWon n; (s, .count k)
      | none => (s, .nothing))
  | _ => none

def performPromise (s : Script) : Instruction → Option (Script × Answer)
  | .promise name value =>
    let f := s.bench.floor
    let m : Meeting Datum := match value with
      | some v => { promise := .resolved v }
      | none => {}
    some ({ s with
      bench := s.bench.setFloor { f with promises := f.promises ++ [m] }
      promises := (name, f.promises.length) :: s.promises }, .nothing)
  | .clonePromise source name =>
    match s.promises.lookup source with
    | some k => some ({ s with promises := (name, k) :: s.promises }, .nothing)
    | none => some (s, .nothing)
  | .resolve promise v =>
    match s.promises.lookup promise with
    | some k => some (s.now (.visit k (.resolving v)))
    | none => some (s, .nothing)
  | .promiseState promise =>
    some (s, match (s.promises.lookup promise).bind fun k => s.bench.floor.promises[k]? with
      | some m => .promise m.promise
      | none => .nothing)
  | .wait name isFuture promise token =>
    match s.promises.lookup promise with
    | some k =>
      some (s.handTo name isFuture token (.visit k (if isFuture then .registering else .entering)))
    | none => some (s, .nothing)
  | .resolveRace promise n =>
    match s.promises.lookup promise with
    | some k =>
      let (s, won) := s.race (.visit k (.resolving (.text "raced"))) hasWon n
      some (s, .count won)
    | none => some (s, .nothing)
  | _ => none

def performWorker (s : Script) : Instruction → Option (Script × Answer)
  | .spawn task tag panics =>
    some (s.setBench (s.bench.add (.task tag panics)).1, .text task.debug)
  | .clock name =>
    some ({ s with
      bench := { s.bench with clocks := s.bench.clocks ++ [{}] }
      clocks := (name, s.bench.clocks.length) :: s.clocks }, .nothing)
  | .advanceClock name =>
    match s.clocks.lookup name with
    | some k =>
      let (c, n) := (s.bench.clocks.getD k {}).advance
      some (s.setBench { s.bench with clocks := s.bench.clocks.set k c }, .count n)
    | none => some (s, .nothing)
  | .cycleToken name generation =>
    some ({ s with
      bench := { s.bench with cycleTokens := s.bench.cycleTokens ++ [⟨generation, false⟩] }
      cycleTokens := (name, s.bench.cycleTokens.length) :: s.cycleTokens }, .nothing)
  | .cloneCycleToken source name =>
    match s.cycleTokens.lookup source with
    | some k => some ({ s with cycleTokens := (name, k) :: s.cycleTokens }, .nothing)
    | none => some (s, .nothing)
  | .cancelCycleToken name =>
    match s.cycleTokens.lookup name with
    | some k =>
      match s.bench.cycleTokens[k]? with
      | some t =>
        let (t, won) := t.cancel
        some (s.setBench { s.bench with cycleTokens := s.bench.cycleTokens.set k t }, .flag won)
      | none => some (s, .nothing)
    | none => some (s, .nothing)
  | .cycleTokenState name =>
    some (s, match (s.cycleTokens.lookup name).bind fun k => s.bench.cycleTokens[k]? with
      | some t => .cycleToken t
      | none => .nothing)
  | .lifecycle name generation =>
    let f := s.bench.floor
    some ({ s with
      bench := s.bench.setFloor { f with lifecycles := f.lifecycles ++ [.ofGeneration generation] }
      lifecycles := (name, f.lifecycles.length) :: s.lifecycles }, .nothing)
  | .onLifecycle name call =>
    match s.lifecycles.lookup name with
    | some k => some (s.now (.lifecycle k call))
    | none => some (s, .nothing)
  | .lifecycleState name =>
    some (s, match (s.lifecycles.lookup name).bind fun k => s.bench.floor.lifecycles[k]? with
      | some l => .lifecycle l
      | none => .nothing)
  | .cancelLifecycle name =>
    match s.lifecycles.lookup name with
    | some k => some (s.now (.lifecycle k (.cancelling false)))
    | none => some (s, .nothing)
  | .lifecycleRace name n =>
    match s.lifecycles.lookup name with
    | some k =>
      let call : LifecycleCall := .shuttingDown .claiming (some { tag := .text "race" })
      let (s, won) := s.race (.lifecycle k call) hasWon n
      some (s, .count won)
    | none => some (s, .nothing)
  | .comparePhases a b => some (s, .phases a b)
  | _ => none

def perform (s : Script) (i : Instruction) : Script × Answer :=
  ((s.performTold i).orElse fun _ => (s.performCycle i).orElse fun _ =>
    (s.performService i).orElse fun _ => (s.performPromise i).orElse fun _ =>
      s.performWorker i).getD (s, .nothing)

/-- what is shown after an instruction -/
structure Report where
  answer : Answer
  /-- callers that have ended, with their results -/
  finished : List (String × Actor.Result)
  log : List LogEntry
  /-- the counts, if they have changed -/
  counts : Option Counts

/-- carry out an instruction and let everything come to rest -/
def step (s : Script) (i : Instruction) : Script × Report :=
  let before := s.bench.run.procs.length
  let (s, answer) := s.perform i
  let b := (s.bench.settle before).poll.settle 0
  let counts := Counts.ofTrace b.run.trace
  ({ s with bench := b.markShown },
    { answer
      finished := b.finished
      log := b.newLog
      counts := if counts = b.counts then none else some counts })

def steps (s : Script) : List Instruction → Script × List Report
  | [] => (s, [])
  | i :: rest =>
    let (s, r) := s.step i
    let (s, rs) := steps s rest
    (s, r :: rs)

end Script

end IndexCoordinator.Bench
