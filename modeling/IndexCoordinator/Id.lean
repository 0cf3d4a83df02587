/-!
# Index ids

An index is named by a text.  The table `IdTable` numbers the names in the order in which they
were first asked for, from 1, and an `IndexId` is a name with its number.  Creating an id takes
two locked sections, a look and, for a missing name, a second look with an insertion; `Creation`
is the position of a creating caller between them.
-/

namespace IndexCoordinator

def filenameIndexName : String := "filenames"

/-- an interned index name and its number -/
structure IndexId where
  name : String
  number : Nat
deriving DecidableEq, Repr

namespace IndexId

def debug (id : IndexId) : String := "IndexId(" ++ id.name ++ "#" ++ toString id.number ++ ")"

/-- ids are ordered by number, that is by first creation -/
instance : Ord IndexId := ⟨fun a b => compare a.number b.number⟩

def isFilename (id : IndexId) : Bool := id.name == filenameIndexName

end IndexId

/-- the names in order of first creation, and the number of every name -/
structure IdTable where
  names : List String := []
  numbers : List (String × Nat) := []
deriving DecidableEq, Repr

namespace IdTable

def find (t : IdTable) (name : String) : Option IndexId :=
  (t.numbers.lookup name).map fun n => ⟨name, n⟩

def nameOf (t : IdTable) (id : IndexId) : Option String := t.names[id.number - 1]?

/-- the section that inserts: it looks again, since the name may have come in meanwhile -/
def insert (t : IdTable) (name : String) : IdTable × IndexId :=
  match t.find name with
  | some id => (t, id)
  | none =>
    let n := t.names.length + 1
    (⟨t.names ++ [name], (name, n) :: t.numbers⟩, ⟨name, n⟩)

end IdTable

/-- where a caller that creates an id stands -/
inductive Creation where
  | looking (name : String)
  | inserting (name : String)
  | ended (id : IndexId)
deriving DecidableEq, Repr

def Creation.next (t : IdTable) : Creation → Option (IdTable × Creation)
  | .looking name =>
    match t.find name with
    | some id => some (t, .ended id)
    | none => some (t, .inserting name)
  | .inserting name => some ((t.insert name).1, .ended (t.insert name).2)
  | .ended _ => none

namespace IdTable

/-- create an id with no other caller in between -/
def create (t : IdTable) (name : String) : IdTable × IndexId :=
  match t.find name with
  | some id => (t, id)
  | none => t.insert name

def initial : IdTable := (({} : IdTable).create filenameIndexName).1

theorem create_of_missing {t : IdTable} {name : String} (h : t.find name = none) :
    Creation.next t (.looking name) = some (t, .inserting name) ∧
      t.create name = t.insert name := by
  simp [create, Creation.next, h]

theorem create_of_found {t : IdTable} {name : String} {id : IndexId} (h : t.find name = some id) :
    Creation.next t (.looking name) = some (t, .ended id) ∧ t.create name = (t, id) := by
  simp [create, Creation.next, h]

theorem find_insert_self (t : IdTable) (name : String) :
    (t.insert name).1.find name = some (t.insert name).2 := by
  unfold insert
  cases h : t.find name with
  | some id => simpa using h
  | none => simp [find]

end IdTable

end IndexCoordinator
