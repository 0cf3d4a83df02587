import IndexCoordinator.Bench.Actor
import IndexCoordinator.Bench.Collaborators

/-!
# The bench

A bench is a run under collaborators that answer from tables.  `move` lets one process make its
next move, `settle` lets all processes move until each has ended, is held at a gate, or waits for
something that is not there.  The process that moved last goes on as long as it can; then comes
the first of those that can move.
-/

namespace IndexCoordinator

/-- what a token of a caller is -/
inductive TokenRef where
  /-- one of the tokens of the bench -/
  | own (position : Nat)
  /-- the shutdown token of a cycle -/
  | ofCycle (place : Bench.CyclePlace)
deriving DecidableEq, Repr

/-- a caller with a name: a thread, or a future that is polled now and then -/
structure Caller where
  name : String
  proc : Nat
  isFuture : Bool
  reported : Bool := false

structure Bench where
  settings : IndexingSettings
  run : Run Bench.Floor Bench.Actor
  /-- the coordinator of the service that was started last -/
  service : Option Nat := none
  collaborators : Bench.Collaborators := {}
  closed : List Bench.Gate := []
  /-- held requests in order of arrival -/
  held : List Bench.Held := []
  /-- which tokens have fired -/
  tokens : List Bool := []
  /-- the tokens of processes that have one -/
  tokenOf : List (Nat × TokenRef) := []
  cycleTokens : List CycleToken := []
  clocks : List CycleClock := []
  callers : List Caller := []
  /-- how much of the trace was shown -/
  shown : Nat := 0
  /-- the counts that were shown last -/
  counts : Bench.Counts := {}

namespace Bench

/-- a bench on which nothing has happened -/
def setUp (settings : IndexingSettings) (collaborators : Collaborators) : Bench :=
  { settings, run := ⟨{ coordinators := [{ settings }] }, [], []⟩, collaborators }

def floor (b : Bench) : Floor := b.run.shared

def setFloor (b : Bench) (f : Floor) : Bench := { b with run := { b.run with shared := f } }

/-- the cells of the service that was started last -/
def coordinator? (b : Bench) : Option Coordinator := b.service.bind b.floor.coordinator?

def hasFired (b : Bench) : TokenRef → Bool
  | .own k => b.tokens.getD k false
  | .ofCycle place => (b.floor.cycle? place).any fun c => c.lifecycle.isCancelled

def firedFor (b : Bench) (i : Nat) : Bool := (b.tokenOf.lookup i).any b.hasFired

def moveOf (b : Bench) (i : Nat) : Move (Progress Floor Actor) :=
  match b.run.procs[i]? with
  | some p => p.next (b.firedFor i) b.run.shared
  | none => .blocked

def commit (b : Bench) (i : Nat) (p : Progress Floor Actor) : Bench :=
  { b with run := b.run.commit i p }

/-- let a process make its next move; a request at a closed gate is held there -/
def move (b : Bench) (i : Nat) : Option Bench :=
  match b.moveOf i with
  | .blocked => none
  | .act q => some (b.commit i q)
  | .call r k =>
    match gateOf r with
    | some g =>
      if g ∈ b.closed then
        if b.held.any fun h => h.proc == i then none
        else some { b with held := b.held ++ [⟨i, g, holdKey r⟩] }
      else some (b.commit i (k (b.collaborators.answer r)))
    | none => some (b.commit i (k (b.collaborators.answer r)))

def runOnly : Nat → Nat → Bench → Bench
  | 0, _, b => b
  | fuel + 1, i, b =>
    match b.move i with
    | some b => runOnly fuel i b
    | none => b

def isFuture (b : Bench) (i : Nat) : Bool := b.callers.any fun c => c.proc == i && c.isFuture

/-- the first process that can move, and the bench after its move; futures wait to be polled -/
def firstMove (b : Bench) : Option (Nat × Bench) :=
  (List.range b.run.procs.length).findSome? fun i =>
    if b.isFuture i then none else (b.move i).map fun b => (i, b)

/-- let processes move until none can, beginning with a given one -/
def settleFrom : Nat → Nat → Bench → Bench
  | 0, _, b => b
  | fuel + 1, i, b =>
    match if b.isFuture i then none else b.move i with
    | some b => settleFrom fuel i b
    | none =>
      match b.firstMove with
      | some (i, b) => settleFrom fuel i b
      | none => b

def patience : Nat := 1000000

/-- let everything move until nothing can, beginning with a given process -/
def settle (b : Bench) (i : Nat) : Bench := settleFrom patience i b

def poll (b : Bench) : Bench :=
  b.callers.foldl (fun b c => if c.isFuture then runOnly patience c.proc b else b) b

def add (b : Bench) (a : Actor) : Bench × Nat :=
  ({ b with run := b.run.invoke a }, b.run.procs.length)

/-- a call that the bench makes itself and whose end it waits for -/
def call (b : Bench) (a : Actor) : Bench × Option Actor.Result :=
  let (b, i) := b.add a
  let b := runOnly patience i b
  (b, (b.run.procs[i]?).bind Actor.result?)

def callBy (b : Bench) (name : String) (isFuture : Bool) (token : Option TokenRef) (a : Actor) :
    Bench :=
  let (b, i) := b.add a
  { b with
    callers := b.callers ++ [{ name, proc := i, isFuture }]
    tokenOf := match token with
      | some t => (i, t) :: b.tokenOf
      | none => b.tokenOf }

/-! ## gates -/

def heldAt (b : Bench) (g : Gate) : List Held :=
  (b.held.filter fun h => h.gate == g).mergeSort keyLe

/-- let a held request through, and then everything move -/
def letThrough (b : Bench) (h : Held) : Bench :=
  let b := { b with held := b.held.filter fun x => !(x.proc == h.proc) }
  match b.moveOf h.proc with
  | .call r k => (b.commit h.proc (k (b.collaborators.answer r))).settle h.proc
  | _ => b

/-- let the first held request through again and again until none is held; how many were -/
def drain (g : Gate) : Nat → Bench → Bench × Nat
  | 0, b => (b, 0)
  | fuel + 1, b =>
    match b.heldAt g with
    | [] => (b, 0)
    | h :: _ =>
      let (b, n) := drain g fuel (b.letThrough h)
      (b, n + 1)

def openGate (b : Bench) (g : Gate) : Bench × Nat :=
  let (b, n) := drain g patience b
  ({ b with closed := b.closed.filter fun x => !(x == g) }, n)

/-! ## what is shown after a step -/

/-- callers that have ended since they were last asked for, with their results -/
def finished (b : Bench) : List (String × Actor.Result) :=
  b.callers.filterMap fun c =>
    if c.reported then none
    else ((b.run.procs[c.proc]?).bind Actor.result?).map fun r => (c.name, r)

def waiting (b : Bench) : List String :=
  (b.callers.filter fun c => ((b.run.procs[c.proc]?).bind Actor.result?).isNone).map (·.name)

def newLog (b : Bench) : List LogEntry := (b.run.trace.drop b.shown).filterMap LogEntry.ofEvent

def markShown (b : Bench) : Bench :=
  { b with
    callers := b.callers.map fun c =>
      if ((b.run.procs[c.proc]?).bind Actor.result?).isSome then { c with reported := true } else c
    shown := b.run.trace.length
    counts := Counts.ofTrace b.run.trace }

end Bench

end IndexCoordinator
