import IndexCoordinator.Filter

/-!
# Rules: a small language of file checks

A `Rule` is a file check written as data.  Conjunction and disjunction look at their parts from
the left and stop at the first part that decides.
-/

namespace IndexCoordinator

def occursIn (needle : List Char) : List Char → Bool
  | [] => needle.isEmpty
  | c :: rest => needle.isPrefixOf (c :: rest) || occursIn needle rest

/-- a file check as data; texts are matched on the path as it is written -/
inductive Rule where
  | constant (answer : Bool)
  | startsWith (text : String)
  | endsWith (text : String)
  | contains (text : String)
  | hasType (name : String)
  | longerThan (length : Nat)
  | isDirectory
  | negation (rule : Rule)
  | allOf (rules : List Rule)
  | anyOf (rules : List Rule)
  | noted (message : String) (rule : Rule)
  | panics (payload : PanicPayload)

namespace Rule

instance : Inhabited Rule := ⟨.constant false⟩

mutual

def check (file : IndexedFile) : Rule → Trial Bool
  | .constant b => pure b
  | .startsWith s => pure (s.toList.isPrefixOf file.path.toList)
  | .endsWith s => pure (s.toList.isSuffixOf file.path.toList)
  | .contains s => pure (occursIn s.toList file.path.toList)
  | .hasType s => pure (file.fileType.name == s)
  | .longerThan n => pure (decide (n < file.length))
  | .isDirectory => pure file.isDirectory
  | .negation r => do pure (!(← check file r))
  | .allOf rs => checkAll file rs
  | .anyOf rs => checkAny file rs
  | .noted s r => do
    Trial.note s
    check file r
  | .panics p => Trial.panic p

/-- every rule of a list, from the left up to the first that refuses -/
def checkAll (file : IndexedFile) : List Rule → Trial Bool
  | [] => pure true
  | r :: rest => do if ← check file r then checkAll file rest else pure false

/-- some rule of a list, from the left up to the first that accepts -/
def checkAny (file : IndexedFile) : List Rule → Trial Bool
  | [] => pure false
  | r :: rest => do if ← check file r then pure true else checkAny file rest

end

def predicate (r : Rule) : FilePredicate := fun file => r.check file

end Rule

end IndexCoordinator
