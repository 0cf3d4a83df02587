import IndexCoordinator.File
import IndexCoordinator.Panic

/-!
# Input filters

A filter decides which files an index is offered: by file type, by a check of the single file, or
by both.  `classify` is the part of the decision that only needs the type.
-/

namespace IndexCoordinator

/-- a check of a single file, supplied from outside: it may note messages and may panic -/
abbrev FilePredicate := IndexedFile → Trial Bool

/-- which files an index is offered -/
inductive InputFilter where
  /-- every file -/
  | any
  /-- files of the listed types -/
  | fileTypes (types : List FileType)
  /-- files of the listed types that also pass a check -/
  | fileTypesAnd (types : List FileType) (accept : FilePredicate)
  /-- files that pass a check, of whatever type -/
  | custom (accept : FilePredicate)

/-- what the type of a file alone decides -/
inductive Acceptance where
  | always
  | perFile (accept : FilePredicate)
  | never

namespace InputFilter

def classify : InputFilter → FileType → Acceptance
  | .any, _ => .always
  | .fileTypes types, t => if t ∈ types then .always else .never
  | .fileTypesAnd types accept, t => if t ∈ types then .perFile accept else .never
  | .custom accept, _ => .perFile accept

def accepts (f : InputFilter) (file : IndexedFile) : Trial Bool :=
  match f.classify file.fileType with
  | .always => pure true
  | .perFile accept => accept file
  | .never => pure false

/-- a set of file types as text, every type once -/
def debugTypes (types : List FileType) : String :=
  "\x7b" ++ ", ".intercalate (types.eraseDups.map FileType.debug) ++ "\x7d"

/-- the text for diagnostics; a check has no text of its own -/
def debug : InputFilter → String
  | .any => "Any"
  | .fileTypes types => "FileTypes(" ++ debugTypes types ++ ")"
  | .fileTypesAnd types _ => "FileTypesAnd(" ++ debugTypes types ++ ", \"<predicate>\")"
  | .custom _ => "Custom(\"<predicate>\")"

end InputFilter

end IndexCoordinator
