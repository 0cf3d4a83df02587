import IndexCoordinator.Fingerprint
import IndexCoordinator.Panic
import IndexCoordinator.Registry

/-!
# Configurations

An `IndexConfiguration` is a registry all of whose indexes storage has opened, with their versions
and the fingerprint.  It is assembled index by index in order of registration; `Assembly` is the
state between two openings.
-/

namespace IndexCoordinator

structure IndexConfiguration where
  registry : Registry
  versions : List (IndexId × UInt32)
  fingerprint : UInt64

namespace IndexConfiguration

def indexIds (c : IndexConfiguration) : List IndexId := c.registry.ids

def version? (c : IndexConfiguration) (id : IndexId) : Option UInt32 := c.versions.lookup id

def contains (c : IndexConfiguration) (id : IndexId) : Bool := (c.version? id).isSome

end IndexConfiguration

/-- a configuration on its way: what is still to be opened, and the versions of what was -/
structure Assembly where
  registry : Registry
  remaining : List IndexDescriptor
  versions : List (IndexId × UInt32) := []

namespace Assembly

def ofRegistry (r : Registry) : Assembly := { registry := r, remaining := r.descriptors }

def opened (a : Assembly) (d : IndexDescriptor) (rest : List IndexDescriptor) : Assembly :=
  { a with remaining := rest, versions := a.versions ++ [(d.id, d.version)] }

def finish (a : Assembly) : IndexConfiguration :=
  ⟨a.registry, a.versions, Fingerprint.ofVersions a.versions⟩

end Assembly

/-- how an attempt to open an index ended -/
abbrev Opening := Outcome (Except StorageError Unit)

def Opening.result (id : IndexId) : Opening → Outcome (Except BuildError Unit)
  | .returned (.ok ()) => .returned (.ok ())
  | .returned (.error e) => .returned (.error (.storage id e))
  | .panicked p => .panicked p

namespace IndexConfiguration

/-- open what remains of an assembly, stopping at the first failure -/
def complete (openIndex : IndexDescriptor → Opening) (registry : Registry) :
    List (IndexId × UInt32) → List IndexDescriptor →
      Outcome (Except BuildError IndexConfiguration)
  | versions, [] => .returned (.ok (Assembly.finish ⟨registry, [], versions⟩))
  | versions, d :: rest =>
    match Opening.result d.id (openIndex d) with
    | .returned (.ok ()) => complete openIndex registry (versions ++ [(d.id, d.version)]) rest
    | .returned (.error e) => .returned (.error e)
    | .panicked p => .panicked p

/-- open every index of a registry in order and derive the lookup tables -/
def assemble (openIndex : IndexDescriptor → Opening) (r : Registry) :
    Outcome (Except BuildError IndexConfiguration) :=
  complete openIndex r [] r.descriptors

/-- the indexes that `complete` asks storage to open, in order -/
def asked (openIndex : IndexDescriptor → Opening) : List IndexDescriptor → List IndexDescriptor
  | [] => []
  | d :: rest =>
    match openIndex d with
    | .returned (.ok ()) => d :: asked openIndex rest
    | _ => [d]

end IndexConfiguration

end IndexCoordinator
