import IndexCoordinator.Text.Path

/-!
# Files, file types and unsaved documents

What the file model hands in: a file with its type and length, and the in-memory text of an
open document with its modification stamp.
-/

namespace IndexCoordinator

structure FileType where
  name : String
deriving DecidableEq, Repr

namespace FileType

def debug (t : FileType) : String := "FileType(" ++ t.name ++ ")"

/-- file types are ordered by name -/
instance : Ord FileType := ⟨fun a b => compare a.name b.name⟩

end FileType

/-- a file or directory; a directory has length 0 -/
structure IndexedFile where
  path : String
  fileType : FileType
  isDirectory : Bool := false
  length : Nat := 0
deriving DecidableEq, Repr

namespace IndexedFile

def regular (path : String) (fileType : FileType) (length : Nat) : IndexedFile :=
  { path, fileType, length }

def directory (path : String) (fileType : FileType) : IndexedFile :=
  { path, fileType, isDirectory := true }

def same (a b : IndexedFile) : Bool :=
  Path.same a.path b.path && a.fileType == b.fileType && a.isDirectory == b.isDirectory &&
    a.length == b.length

end IndexedFile

abbrev DocumentId := Nat

abbrev Stamp := Nat

/-- an edited version of a file that was not written to disk -/
structure UnsavedDocument where
  id : DocumentId
  file : IndexedFile
  text : String
  stamp : Stamp
deriving DecidableEq, Repr

end IndexCoordinator
