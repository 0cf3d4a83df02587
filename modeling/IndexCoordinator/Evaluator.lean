import IndexCoordinator.Registry

/-!
# Required indexes

An `Evaluator` decides which indexes must process a file.  It is made of a finished registry, the
size limit and the file types known at that moment, for which the candidates are computed in
advance; for any other type they are computed at each lookup.
-/

namespace IndexCoordinator

/-- an index that may have to process files of a type -/
structure Candidate where
  id : IndexId
  contentDependent : Bool
  /-- the check of the single file, if the type alone does not decide -/
  check : Option FilePredicate

/-- what the type of a file decides, in order of registration -/
structure TypeIndexes where
  candidates : List Candidate := []
  excluded : List IndexId := []

namespace TypeIndexes

def add (t : FileType) (acc : TypeIndexes) (d : IndexDescriptor) : TypeIndexes :=
  match d.inputFilter.classify t with
  | .always => { acc with candidates := acc.candidates ++ [⟨d.id, d.contentDependent, none⟩] }
  | .perFile accept =>
    { acc with candidates := acc.candidates ++ [⟨d.id, d.contentDependent, some accept⟩] }
  | .never => { acc with excluded := acc.excluded ++ [d.id] }

def compute (r : Registry) (t : FileType) : TypeIndexes := r.descriptors.foldl (add t) {}

end TypeIndexes

/-- decides which indexes must process a file -/
structure Evaluator where
  registry : Registry
  fileSizeLimit : Nat
  directories : List (IndexId × InputFilter)
  byFileType : List (FileType × TypeIndexes)

namespace Evaluator

/-- the evaluator of a registry, computing the given file types in advance -/
def ofRegistry (r : Registry) (fileTypes : List FileType) (fileSizeLimit : Nat) : Evaluator where
  registry := r
  fileSizeLimit := fileSizeLimit
  directories :=
    r.forDirectories.filterMap fun id => (r.descriptor? id).map fun d => (id, d.inputFilter)
  byFileType := fileTypes.eraseDups.map fun t => (t, TypeIndexes.compute r t)

/-- what the type decides, looked up or computed -/
def forType (e : Evaluator) (t : FileType) : TypeIndexes :=
  (e.byFileType.lookup t).getD (TypeIndexes.compute e.registry t)

def isPrecomputed (e : Evaluator) (t : FileType) : Bool := (e.byFileType.lookup t).isSome

def isTooLarge (e : Evaluator) (file : IndexedFile) : Bool :=
  decide (e.fileSizeLimit < file.length) && !(e.registry.noLimitTypes.contains file.fileType)

def admits (file : IndexedFile) (tooLarge : Bool) (c : Candidate) : Trial Bool :=
  if tooLarge && c.contentDependent then pure false
  else match c.check with
    | none => pure true
    | some accept => accept file

/-- the indexes that must process a file, in order of registration -/
def requiredIndexes (e : Evaluator) (file : IndexedFile) : Trial (List IndexId) :=
  if file.isDirectory then do
    let kept ← Trial.select (fun d : IndexId × InputFilter => d.2.accepts file) e.directories
    pure (kept.map (·.1))
  else do
    let kept ← Trial.select (admits file (e.isTooLarge file)) (e.forType file.fileType).candidates
    pure (kept.map (·.id))

/-- the indexes that would run for files of a type, and those that the type excludes -/
def requiredForType (e : Evaluator) (t : FileType) : List IndexId × List IndexId :=
  ((e.forType t).candidates.map (·.id), (e.forType t).excluded)

def debug (e : Evaluator) : String :=
  "RequiredIndexesEvaluator \x7b indexes: " ++ toString e.registry.size ++ ", file_size_limit: " ++
    toString e.fileSizeLimit ++ ", file_types: " ++ toString e.byFileType.length ++ ", .. \x7d"

end Evaluator

end IndexCoordinator
