import IndexCoordinator.Id

/-!
# Errors

Why a build failed, and what callers of the coordinator are told.  Each error is its cause; the
wording is in `message`, and `sources` lists the texts of the errors underneath.
-/

namespace IndexCoordinator

/-- the extension host could not list its descriptors -/
structure ExtensionError where
  message : String
deriving DecidableEq, Repr

/-- the storage engine could not open an index -/
structure StorageError where
  message : String
deriving DecidableEq, Repr

/-- why the build of a configuration failed -/
inductive BuildError where
  | duplicateIndex (index : IndexId)
  | extensions (cause : ExtensionError)
  | storage (index : IndexId) (cause : StorageError)
  | panicked (message : String)
deriving DecidableEq, Repr

namespace BuildError

def message : BuildError → String
  | .duplicateIndex index => "index " ++ index.name ++ " is registered more than once"
  | .extensions cause => "failed to load index extensions: " ++ cause.message
  | .storage index cause =>
    "failed to open storage for index " ++ index.name ++ ": " ++ cause.message
  | .panicked text => "index configuration build panicked: " ++ text

/-- the errors underneath, outermost first -/
def sources : BuildError → List String
  | .extensions cause => [cause.message]
  | .storage _ cause => [cause.message]
  | _ => []

end BuildError

/-- what a caller of the coordinator is told -/
inductive IndexError where
  /-- the caller's own token fired while it waited -/
  | cancelled
  /-- the build failed; the cycle stays without a configuration -/
  | configuration (cause : BuildError)
  | notInitialized
  | shutDown
deriving DecidableEq, Repr

namespace IndexError

def message : IndexError → String
  | .cancelled => "wait cancelled by caller"
  | .configuration cause => "index configuration is unavailable: " ++ cause.message
  | .notInitialized => "required indexes are not initialized yet"
  | .shutDown => "indexing is shut down"

def sources : IndexError → List String
  | .configuration cause => cause.message :: cause.sources
  | _ => []

def isCancellation : IndexError → Bool
  | .cancelled => true
  | _ => false

end IndexError

end IndexCoordinator
