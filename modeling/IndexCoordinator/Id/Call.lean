import IndexCoordinator.Id
import IndexCoordinator.Interleaving

/-!
# Calls at the table of ids

All threads share one table, which they read and write under its lock.  A call is one locked section,
except that a creation that has not found its name gives the lock back and looks again in a second
section before it inserts.
-/

namespace IndexCoordinator.IdTable

inductive Call where
  | creating (c : Creation)
  /-- about to look a name up -/
  | finding (name : String)
  | found (id : Option IndexId)
  /-- about to read the name of an id -/
  | naming (id : IndexId)
  | named (name : Option String)
deriving DecidableEq, Repr

namespace Call

def create (name : String) : Call := .creating (.looking name)

/-- asking for the built-in index is creating its name -/
def filename : Call := create filenameIndexName

def next : Program IdTable Call
  | _, t, .creating c =>
    match c.next t with
    | some (t', c') => .act { shared := t', self := .creating c' }
    | none => .blocked
  | _, t, .finding name => .act { shared := t, self := .found (t.find name) }
  | _, t, .naming id => .act { shared := t, self := .named (t.nameOf id) }
  | _, _, .found _ => .blocked
  | _, _, .named _ => .blocked

end Call

end IndexCoordinator.IdTable
