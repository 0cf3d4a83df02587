import IndexCoordinator.Host

/-!
# Interleaved runs

An operation is a sequence of atomic moves on shared cells: reads and writes of one cell, sections
under a lock, and calls of collaborators.  A process says where its operation stands, and a
`Program` gives the next move of a process.  A run interleaves the moves of any number of
processes in any order; while a process is inside a call all others may move.

* `Move`       the next move: none for now, an atomic action, or the answer of a pending call;
* `Run`        shared cells, processes and what happened so far;
* `Step`       one move of one process, whatever a collaborator answers and whether or not the
               process's own token has fired;
* `Reachable`  the runs that begin with given cells and in which callers of a given kind come in.
-/

namespace IndexCoordinator

/-- the next move of a process, with what it leads to -/
inductive Move (σ : Type) where
  /-- it has ended, or waits for something that is not there -/
  | blocked
  | act (next : σ)
  /-- it is inside a call and goes on when the call ends -/
  | call (request : Request) (resume : Outcome request.Answer → σ)

namespace Move

def map {σ τ : Type} (f : σ → τ) : Move σ → Move τ
  | .blocked => .blocked
  | .act s => .act (f s)
  | .call r k => .call r fun a => f (k a)

end Move

/-- what a move leads to: new cells, the new position, processes that it started, and events -/
structure Progress (σ π : Type) where
  shared : σ
  self : π
  spawned : List π := []
  events : List Event := []

namespace Progress

def map {σ π τ ρ : Type} (f : σ → τ) (g : π → ρ) (p : Progress σ π) : Progress τ ρ :=
  ⟨f p.shared, g p.self, p.spawned.map g, p.events⟩

def noting {σ π : Type} (events : List Event) (p : Progress σ π) : Progress σ π :=
  { p with events := p.events ++ events }

end Progress

/-- the next move of a process; the first argument tells whether its own token has fired -/
abbrev Program (σ π : Type) := Bool → σ → π → Move (Progress σ π)

/-- a pending call: when it ends, its end is an event -/
def Move.awaiting {σ π : Type} (r : Request) (k : Outcome r.Answer → Progress σ π) :
    Move (Progress σ π) :=
  .call r fun a => (k a).noting [.left r (r.ending a)]

/-- shared cells, processes, and events in order -/
structure Run (σ π : Type) where
  shared : σ
  procs : List π := []
  trace : List Event := []

namespace Run

variable {σ π : Type}

def commit (r : Run σ π) (i : Nat) (p : Progress σ π) : Run σ π :=
  ⟨p.shared, r.procs.set i p.self ++ p.spawned, r.trace ++ p.events⟩

def invoke (r : Run σ π) (p : π) : Run σ π := { r with procs := r.procs ++ [p] }

/-- one move of one process -/
inductive Step (next : Program σ π) : Run σ π → Run σ π → Prop where
  | act {r : Run σ π} {i : Nat} {p : π} {fired : Bool} {q : Progress σ π} :
      r.procs[i]? = some p → next fired r.shared p = .act q → Step next r (r.commit i q)
  | call {r : Run σ π} {i : Nat} {p : π} {fired : Bool} {req : Request}
      {k : Outcome req.Answer → Progress σ π} (a : Outcome req.Answer) :
      r.procs[i]? = some p → next fired r.shared p = .call req k → Step next r (r.commit i (k a))

/-- the runs that begin with cells `initial` and no process, and in which processes come in at
any time as `starts` allows -/
inductive Reachable (next : Program σ π) (starts : σ → π → Prop) (initial : σ → Prop) :
    Run σ π → Prop where
  | start {s : σ} : initial s → Reachable next starts initial ⟨s, [], []⟩
  | invoke {r : Run σ π} {p : π} :
      Reachable next starts initial r → starts r.shared p →
        Reachable next starts initial (r.invoke p)
  | step {r r' : Run σ π} :
      Reachable next starts initial r → Step next r r' → Reachable next starts initial r'

/-- what holds at the start and is kept by every new process and every move always holds -/
theorem Reachable.invariant {next : Program σ π} {starts : σ → π → Prop} {initial : σ → Prop}
    {I : Run σ π → Prop} (h0 : ∀ s, initial s → I ⟨s, [], []⟩)
    (hinvoke : ∀ r p, I r → starts r.shared p → I (r.invoke p))
    (hstep : ∀ r r', I r → Step next r r' → I r') {r : Run σ π}
    (h : Reachable next starts initial r) : I r := by
  induction h with
  | start hs => exact h0 _ hs
  | invoke _ hp ih => exact hinvoke _ _ ih hp
  | step _ hst ih => exact hstep _ _ ih hst

end Run

end IndexCoordinator
