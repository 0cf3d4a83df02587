import IndexCoordinator.Datum
import IndexCoordinator.Descriptor
import IndexCoordinator.Error

/-!
# Collaborators

The coordinator drives an extension host, a storage engine and a registry of file types that it
does not own.  A `Request` is a call of one of them, `Request.Answer` what it may answer, and an
`Event` is something that a run leaves behind: a call that was entered, a call that ended, or a
mark left by foreign code.
-/

namespace IndexCoordinator

/-- a call of a collaborator -/
inductive Request where
  | listDescriptors
  | openIndex (descriptor : IndexDescriptor)
  | registeredFileTypes
  | indexUnsaved (index : IndexId) (document : UnsavedDocument)
  | deleteStaleIds
  | bringUpToDate
  | dispose

/-- what a call answers, if it does not panic -/
abbrev Request.Answer : Request → Type
  | .listDescriptors => Except ExtensionError (List IndexDescriptor)
  | .openIndex _ => Except StorageError Unit
  | .registeredFileTypes => List FileType
  | .indexUnsaved _ _ => Unit
  | .deleteStaleIds => Unit
  | .bringUpToDate => Unit
  | .dispose => Unit

/-- how a call ended -/
inductive Ending where
  | completed
  | refused
  | panicked
deriving DecidableEq, Repr

def Request.ending : (r : Request) → Outcome r.Answer → Ending
  | .listDescriptors, .returned (.error _) => .refused
  | .openIndex _, .returned (.error _) => .refused
  | _, .returned _ => .completed
  | _, .panicked _ => .panicked

/-- what a run leaves behind -/
inductive Event where
  | entered (request : Request)
  | left (request : Request) (ending : Ending)
  /-- a message noted by a file check -/
  | noted (message : String)
  /-- a task of its own ran -/
  | ran (tag : Datum)
  /-- the body of a shutdown ran -/
  | body (tag : Datum)

end IndexCoordinator
