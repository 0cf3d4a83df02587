/-!
# Panics

Foreign code (a collaborator, a per-file check, a task body) may end with a panic instead of a
value.  `Outcome` says how such a call ended, `Outcome.caught` is the guard that turns a panic
into the value `TaskPanicked`, and `Trial` is a computation that notes messages on its way and
may panic: what it noted before the panic stays noted.
-/

namespace IndexCoordinator

universe u v

/-- what a panic carries: a text, or a value that is no text -/
inductive PanicPayload where
  | text (message : String)
  | other
deriving DecidableEq, Repr

def PanicPayload.message : PanicPayload → String
  | .text m => m
  | .other => "non-string panic payload"

/-- how a call of foreign code ended -/
inductive Outcome (α : Type u) where
  | returned (value : α)
  | panicked (payload : PanicPayload)
deriving DecidableEq, Repr

/-- a panic captured from the body of a task -/
structure TaskPanicked where
  message : String
deriving DecidableEq, Repr

def TaskPanicked.display (p : TaskPanicked) : String := "task panicked: " ++ p.message

namespace Outcome

/-- the guard around a task body: a panic becomes a value that carries its message -/
def caught {α : Type u} : Outcome α → Except TaskPanicked α
  | .returned a => .ok a
  | .panicked p => .error ⟨p.message⟩

@[simp] theorem caught_returned {α : Type u} (a : α) : caught (.returned a) = .ok a := rfl

@[simp] theorem caught_panicked {α : Type u} (p : PanicPayload) :
    caught (.panicked p : Outcome α) = .error ⟨p.message⟩ := rfl

/-- a body under one guard and `n` more around it.  An outer guard passes on what the inner one
answered; with `rethrow` it first panics again with the message of a captured panic. -/
def caughtWithin {α : Type u} (rethrow : Bool) (body : Outcome α) : Nat → Except TaskPanicked α
  | 0 => body.caught
  | n + 1 =>
    match caughtWithin rethrow body n with
    | .ok a => .ok a
    | .error p =>
      if rethrow then (Outcome.panicked (.text p.message) : Outcome α).caught else .error p

theorem caughtWithin_eq {α : Type u} (rethrow : Bool) (body : Outcome α) (n : Nat) :
    caughtWithin rethrow body n = body.caught := by
  induction n with
  | zero => rfl
  | succ n ih =>
    unfold caughtWithin
    rw [ih]
    cases body with
    | returned a => rfl
    | panicked p => cases rethrow <;> rfl

def map {α : Type u} {β : Type v} (f : α → β) : Outcome α → Outcome β
  | .returned a => .returned (f a)
  | .panicked p => .panicked p

end Outcome

/-- a computation that notes messages and then returns or panics -/
structure Trial (α : Type u) where
  notes : List String
  outcome : Outcome α

namespace Trial

instance : Monad Trial where
  pure a := ⟨[], .returned a⟩
  bind x f :=
    match x.outcome with
    | .returned a => ⟨x.notes ++ (f a).notes, (f a).outcome⟩
    | .panicked p => ⟨x.notes, .panicked p⟩

def note (message : String) : Trial Unit := ⟨[message], .returned ()⟩

def panic {α : Type} (payload : PanicPayload) : Trial α := ⟨[], .panicked payload⟩

@[simp] theorem notes_pure {α : Type} (a : α) : (pure a : Trial α).notes = [] := rfl

@[simp] theorem outcome_pure {α : Type} (a : α) : (pure a : Trial α).outcome = .returned a := rfl

theorem bind_returned {α β : Type} (n : List String) (a : α) (f : α → Trial β) :
    ((⟨n, .returned a⟩ : Trial α) >>= f) = ⟨n ++ (f a).notes, (f a).outcome⟩ := rfl

theorem bind_panicked {α β : Type} (n : List String) (p : PanicPayload) (f : α → Trial β) :
    ((⟨n, .panicked p⟩ : Trial α) >>= f) = ⟨n, .panicked p⟩ := rfl

/-- keep the members that a check accepts, checking from the left up to the first panic -/
def select {α : Type} (check : α → Trial Bool) : List α → Trial (List α)
  | [] => pure []
  | a :: rest => do
    let keep ← check a
    let kept ← select check rest
    pure (if keep then a :: kept else kept)

end Trial

end IndexCoordinator
