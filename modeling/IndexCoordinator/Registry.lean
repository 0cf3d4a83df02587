import IndexCoordinator.Descriptor
import IndexCoordinator.Error

/-!
# The registry

`RegistryBuilder.register` records one descriptor after the other; the finished `Registry` never
changes.  Beside the descriptors in order of registration it keeps what lookups need: positions,
the two sets by content flag, the indexes that take directories, the exempt file types and the
update tasks.
-/

namespace IndexCoordinator

/-- re-indexes unsaved documents for one index; what is in flight is kept by the cycle -/
structure DocumentUpdateTask where
  index : IndexId
deriving DecidableEq, Repr

/-- the text for diagnostics, with the number of the id as a given text -/
def DocumentUpdateTask.debug (t : DocumentUpdateTask) (number : String) : String :=
  "DocumentUpdateTask \x7b index: IndexId(" ++ t.index.name ++ "#" ++ number ++ "), .. \x7d"

/-- what was registered -/
structure Registry where
  /-- in order of registration -/
  descriptors : List IndexDescriptor := []
  /-- where in `descriptors` an index stands -/
  positions : List (IndexId × Nat) := []
  requiringContent : List IndexId := []
  notRequiringContent : List IndexId := []
  /-- indexes of metadata that also take directories, in order of registration -/
  forDirectories : List IndexId := []
  /-- file types that some index takes whatever their size -/
  noLimitTypes : List FileType := []
  updateTasks : List (IndexId × DocumentUpdateTask) := []

namespace Registry

def ids (r : Registry) : List IndexId := r.descriptors.map (·.id)

def position? (r : Registry) (id : IndexId) : Option Nat := r.positions.lookup id

def descriptor? (r : Registry) (id : IndexId) : Option IndexDescriptor :=
  (r.position? id).bind fun p => r.descriptors[p]?

def contains (r : Registry) (id : IndexId) : Bool := (r.position? id).isSome

def isContentDependent (r : Registry) (id : IndexId) : Bool := id ∈ r.requiringContent

def updateTask? (r : Registry) (id : IndexId) : Option DocumentUpdateTask := r.updateTasks.lookup id

def size (r : Registry) : Nat := r.descriptors.length

def isEmpty (r : Registry) : Bool := r.descriptors.isEmpty

/-- the registry with one more descriptor, whose id is not in it yet -/
def add (r : Registry) (d : IndexDescriptor) : Registry :=
  { descriptors := r.descriptors ++ [d]
    positions := (d.id, r.descriptors.length) :: r.positions
    requiringContent :=
      if d.contentDependent then d.id :: r.requiringContent else r.requiringContent
    notRequiringContent :=
      if d.contentDependent then r.notRequiringContent else d.id :: r.notRequiringContent
    forDirectories :=
      if !d.contentDependent && d.indexesDirectories then r.forDirectories ++ [d.id]
      else r.forDirectories
    noLimitTypes := d.sizeLimitExempt.foldl (fun types t => types.insert t) r.noLimitTypes
    updateTasks :=
      if d.contentDependent then (d.id, ⟨d.id⟩) :: r.updateTasks else r.updateTasks }

theorem ids_add (r : Registry) (d : IndexDescriptor) : (r.add d).ids = r.ids ++ [d.id] := by
  simp [ids, add]

theorem position?_add (r : Registry) (d : IndexDescriptor) (id : IndexId) :
    (r.add d).position? id =
      if id = d.id then some r.descriptors.length else r.position? id := by
  unfold position? add
  by_cases h : id = d.id
  · simp [h]
  · have h' : (id == d.id) = false := by simpa using h
    simp [List.lookup_cons, h', h]

end Registry

/-- a registry while descriptors are recorded -/
structure RegistryBuilder where
  /-- leave out the built-in index of file names, which the file system serves itself -/
  skipFilenameIndex : Bool := false
  registry : Registry := {}

namespace RegistryBuilder

/-- whether a descriptor is passed over without a trace -/
def skips (b : RegistryBuilder) (d : IndexDescriptor) : Bool :=
  b.skipFilenameIndex && d.id.isFilename

/-- record one descriptor; a second one for the same id is refused -/
def register (b : RegistryBuilder) (d : IndexDescriptor) : Except BuildError RegistryBuilder :=
  if b.skips d then .ok b
  else if b.registry.contains d.id then .error (.duplicateIndex d.id)
  else .ok { b with registry := b.registry.add d }

/-- record descriptors, going on after a refused one; the answers come in order -/
def registerEach (b : RegistryBuilder) :
    List IndexDescriptor → RegistryBuilder × List (Except BuildError Unit)
  | [] => (b, [])
  | d :: rest =>
    match b.register d with
    | .ok b' => let r := registerEach b' rest; (r.1, .ok () :: r.2)
    | .error e => let r := registerEach b rest; (r.1, .error e :: r.2)

def registerAll (b : RegistryBuilder) : List IndexDescriptor → Except BuildError RegistryBuilder
  | [] => .ok b
  | d :: rest =>
    match b.register d with
    | .ok b' => registerAll b' rest
    | .error e => .error e

def finish (b : RegistryBuilder) : Registry := b.registry

end RegistryBuilder

end IndexCoordinator
