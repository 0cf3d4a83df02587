/-!
# Promises

A promise is resolved at most once.  Its value is kept in a slot under a lock; a flag beside the
slot tells without the lock that the promise is resolved.  `Promise.look` is what a waiter sees
when it looks: a value wins over a token that has fired.
-/

namespace IndexCoordinator

universe u

/-- a value that becomes available once -/
structure Promise (α : Type u) where
  slot : Option α := none
  done : Bool := false
deriving DecidableEq, Repr

inductive Sight (α : Type u) where
  | value (a : α)
  | cancelled
  | nothing
deriving DecidableEq, Repr

namespace Promise

variable {α : Type u}

def resolved (a : α) : Promise α := ⟨some a, true⟩

/-- put a value into an empty slot; the flag is raised separately -/
def store (p : Promise α) (a : α) : Promise α := { p with slot := some a }

def raise (p : Promise α) : Promise α := { p with done := true }

def resolve (p : Promise α) (a : α) : Promise α :=
  match p.slot with
  | some _ => p
  | none => (p.store a).raise

def isOpen (p : Promise α) : Bool := p.slot.isNone

def look (p : Promise α) (fired : Bool) : Sight α :=
  match p.slot with
  | some a => .value a
  | none => if fired then .cancelled else .nothing

def debug (p : Promise α) : String := "Promise \x7b done: " ++ toString p.done ++ " \x7d"

theorem look_of_slot {p : Promise α} {a : α} (h : p.slot = some a) (fired : Bool) :
    p.look fired = .value a := by simp [look, h]

theorem slot_resolve (p : Promise α) (a : α) : (p.resolve a).slot = some (p.slot.getD a) := by
  unfold resolve
  cases h : p.slot <;> simp [store, raise, h]

theorem resolve_of_slot {p : Promise α} {a : α} (h : p.slot = some a) (b : α) :
    p.resolve b = p := by simp [resolve, h]

end Promise

end IndexCoordinator
