import IndexCoordinator.Interleaving

/-!
# Lifecycles

A cycle moves forward through five phases.  Beside the phase it has a flag that is claimed by the
one caller who shuts the cycle down, and a token that this caller then cancels, if nobody has
cancelled it directly before; the phase and the shutdown do not touch each other.
-/

namespace IndexCoordinator

/-- how far a cycle has come -/
inductive Phase where
  | created
  | extensionsLoading
  | extensionsLoaded
  | initializing
  | initialized
deriving DecidableEq, Repr

namespace Phase

def rank : Phase → Nat
  | .created => 0
  | .extensionsLoading => 1
  | .extensionsLoaded => 2
  | .initializing => 3
  | .initialized => 4

instance : LE Phase := ⟨fun a b => a.rank ≤ b.rank⟩

instance : LT Phase := ⟨fun a b => a.rank < b.rank⟩

instance (a b : Phase) : Decidable (a ≤ b) := inferInstanceAs (Decidable (a.rank ≤ b.rank))

instance (a b : Phase) : Decidable (a < b) := inferInstanceAs (Decidable (a.rank < b.rank))

def later (a b : Phase) : Phase := if a.rank ≤ b.rank then b else a

def name : Phase → String
  | .created => "Created"
  | .extensionsLoading => "ExtensionsLoading"
  | .extensionsLoaded => "ExtensionsLoaded"
  | .initializing => "Initializing"
  | .initialized => "Initialized"

theorem rank_later (a b : Phase) : (later a b).rank = max a.rank b.rank := by
  unfold later; split <;> omega

theorem le_later (a b : Phase) : a ≤ a.later b := by
  show a.rank ≤ (a.later b).rank
  rw [rank_later]
  exact Nat.le_max_left _ _

theorem le_later_right (a b : Phase) : b ≤ a.later b := by
  show b.rank ≤ (a.later b).rank
  rw [rank_later]
  exact Nat.le_max_right _ _

theorem later_eq (a b : Phase) : a.later b = a ∨ a.later b = b := by
  unfold later
  split
  · exact .inr rfl
  · exact .inl rfl

theorem later_lt {a b c : Phase} (ha : a < c) (hb : b < c) : a.later b < c := by
  show (a.later b).rank < c.rank
  rw [rank_later]
  exact Nat.max_lt.mpr ⟨ha, hb⟩

theorem lt_of_lt_of_le {a b c : Phase} (h : a < b) (h' : b ≤ c) : a < c := Nat.lt_of_lt_of_le h h'

theorem le_trans {a b c : Phase} (h : a ≤ b) (h' : b ≤ c) : a ≤ c := Nat.le_trans h h'

theorem not_le_of_lt {a b : Phase} (h : a < b) : ¬ b ≤ a := Nat.not_le_of_lt h

theorem eq_initialized {a : Phase} (h : .initialized ≤ a) : a = .initialized := by
  cases a <;> first | rfl | exact absurd h (by decide)

end Phase

/-- hands out the generations of cycles, from 1.  Numbers are not bounded: that a counter of 64 bits
starts again after 2 ^ 64 generations is left out. -/
structure CycleClock where
  issued : Nat := 0
deriving DecidableEq, Repr

def CycleClock.advance (c : CycleClock) : CycleClock × Nat := (⟨c.issued + 1⟩, c.issued + 1)

/-- the generation of a cycle, as unbounded as those of the clock, and whether its background waits
are cancelled -/
structure CycleToken where
  generation : Nat
  cancelled : Bool := false
deriving DecidableEq, Repr

/-- cancel; tells whether the token was not cancelled before -/
def CycleToken.cancel (t : CycleToken) : CycleToken × Bool :=
  ({ t with cancelled := true }, !t.cancelled)

structure Lifecycle where
  phase : Phase := .created
  shutdownPerformed : Bool := false
  token : CycleToken
deriving DecidableEq, Repr

namespace Lifecycle

def ofGeneration (generation : Nat) : Lifecycle := { token := ⟨generation, false⟩ }

def generation (l : Lifecycle) : Nat := l.token.generation

def advance (l : Lifecycle) (target : Phase) : Lifecycle := { l with phase := l.phase.later target }

def isShutdownRequested (l : Lifecycle) : Bool := l.shutdownPerformed

def isCancelled (l : Lifecycle) : Bool := l.token.cancelled

def cancel (l : Lifecycle) : Lifecycle := { l with token := l.token.cancel.1 }

end Lifecycle

inductive Shutdown where
  /-- it is about to claim the flag -/
  | claiming
  /-- it has the claim and is about to cancel the token -/
  | cancelling
deriving DecidableEq, Repr

/-- a part of an operation: it goes on, or has come to its result -/
inductive Turn (τ ρ : Type) where
  | go (t : τ)
  | stop (r : ρ)

/-- the next move of a shutdown; it never waits, and answers whether it had the claim -/
def Shutdown.next (l : Lifecycle) : Shutdown → Lifecycle × Turn Shutdown Bool
  | .claiming =>
    if l.shutdownPerformed then (l, .stop false)
    else ({ l with shutdownPerformed := true }, .go .cancelling)
  | .cancelling => (l.cancel, .stop true)

/-- work that is run by the one caller who shuts down: it leaves a mark and may then panic -/
structure ShutdownBody where
  tag : Datum
  panics : Option PanicPayload := none

inductive LifecycleCall where
  | advancing (target : Phase)
  | shuttingDown (stage : Shutdown) (body : Option ShutdownBody)
  | running (body : ShutdownBody)
  /-- it cancels the token directly, and has or has not looked whether that was done already -/
  | cancelling (looked : Bool)
  /-- an advance has ended; the phase before it -/
  | advanced (previous : Phase)
  | ended (won : Bool)
  | unwound (payload : PanicPayload)
  | cancelled (won : Bool)

def LifecycleCall.next : Program Lifecycle LifecycleCall
  | _, l, .advancing target => .act { shared := l.advance target, self := .advanced l.phase }
  | _, l, .shuttingDown s body =>
    let (l', turn) := s.next l
    match turn, body with
    | .go s, body => .act { shared := l', self := .shuttingDown s body }
    | .stop true, some b => .act { shared := l', self := .running b }
    | .stop won, _ => .act { shared := l', self := .ended won }
  | _, l, .running b =>
    .act {
      shared := l
      self := match b.panics with
        | none => .ended true
        | some p => .unwound p
      events := [.body b.tag] }
  | _, l, .cancelling false =>
    .act { shared := l, self := if l.isCancelled then .cancelled false else .cancelling true }
  | _, l, .cancelling true => .act { shared := l.cancel, self := .cancelled true }
  | _, _, _ => .blocked

end IndexCoordinator
