import IndexCoordinator.Cycle

/-!
# Building an evaluator

Whoever builds a new evaluator reads the published registry, asks for the known file types, and
replaces the evaluator of the cycle.  Without a registry nothing is built.
-/

namespace IndexCoordinator

/-- where the building of an evaluator stands -/
inductive Rebuild where
  | reading
  /-- inside the call that lists the file types -/
  | asking (registry : Registry)
  | storing (evaluator : Evaluator)

namespace Rebuild

/-- the result is whether an evaluator was built, or the panic of the call -/
abbrev Part := Progress Cycle (Turn Rebuild (Outcome Bool))

def next (c : Cycle) : Rebuild → Move Part
  | .reading =>
    match c.registry with
    | none => .act { shared := c, self := .stop (.returned false) }
    | some r =>
      .act { shared := c, self := .go (.asking r), events := [.entered .registeredFileTypes] }
  | .asking r =>
    .awaiting .registeredFileTypes fun
      | .returned types =>
        { shared := c
          self := .go (.storing (Evaluator.ofRegistry r types c.settings.fileSizeLimit)) }
      | .panicked p => { shared := c, self := .stop (.panicked p) }
  | .storing e =>
    .act { shared := { c with evaluator := some e }, self := .stop (.returned true) }

end Rebuild

end IndexCoordinator
