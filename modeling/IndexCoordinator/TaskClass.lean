/-!
# Classes of background tasks
-/

namespace IndexCoordinator

/-- why a task runs in the background -/
inductive TaskClass where
  /-- a setup that other work depends on -/
  | genesis
  /-- work that may be left out once a shutdown was requested -/
  | background
deriving DecidableEq, Repr

namespace TaskClass

def debug : TaskClass → String
  | .genesis => "Genesis"
  | .background => "Background"

end TaskClass

end IndexCoordinator
