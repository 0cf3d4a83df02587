import IndexCoordinator.Cycle.Confirmation
import IndexCoordinator.Cycle.Rebuild

/-!
# Genesis: the build of a cycle

The one task that builds the configuration of a cycle.  It lists the descriptors, registers them,
publishes the registry, opens every index, and then publishes configuration, evaluator and outcome
in this order.  A panic up to the last opening becomes a failed build; a panic while the evaluator
is built is not caught.
-/

namespace IndexCoordinator

/-- where a build stands -/
inductive Genesis where
  | spawned
  /-- inside the call that lists the descriptors -/
  | listing
  | publishing (registry : Registry)
  /-- the registry is published -/
  | loaded (registry : Registry)
  | starting (registry : Registry)
  /-- about to open the next index -/
  | assembling (assembly : Assembly)
  /-- inside the call that opens an index -/
  | opening (assembly : Assembly) (index : IndexDescriptor) (rest : List IndexDescriptor)
  /-- the configuration is complete and not published yet -/
  | caching (configuration : IndexConfiguration)
  | marking (configuration : IndexConfiguration) (rebuild : Rebuild)
  | marked (configuration : IndexConfiguration)
  | resolving (outcome : BuildOutcome)
  /-- the outcome is published; a confirmation is asked for -/
  | confirming (ensure : Ensure)
  | ended
  /-- ended by a panic that nothing caught -/
  | unwound (payload : PanicPayload)

namespace Genesis

def go (c : Cycle) (g : Genesis) : Move (Progress Cycle (Genesis × List Maintenance)) :=
  .act { shared := c, self := (g, []) }

def register (settings : IndexingSettings) (descriptors : List IndexDescriptor) :
    Except BuildError Registry :=
  match ({ skipFilenameIndex := settings.skipFilenameIndex } : RegistryBuilder).registerAll
      descriptors with
  | .ok b => .ok b.finish
  | .error e => .error e

def afterListing (settings : IndexingSettings) :
    Outcome (Except ExtensionError (List IndexDescriptor)) → Genesis
  | .returned (.ok descriptors) =>
    match register settings descriptors with
    | .ok r => .publishing r
    | .error e => .resolving (.error e)
  | .returned (.error e) => .resolving (.error (.extensions e))
  | .panicked p => .resolving (.error (.panicked p.message))

def afterOpening (a : Assembly) (d : IndexDescriptor) (rest : List IndexDescriptor) :
    Outcome (Except StorageError Unit) → Genesis
  | .returned (.ok ()) => .assembling (a.opened d rest)
  | .returned (.error e) => .resolving (.error (.storage d.id e))
  | .panicked p => .resolving (.error (.panicked p.message))

/-- the next move of a build, with the maintenance tasks that it starts -/
def next (c : Cycle) : Genesis → Move (Progress Cycle (Genesis × List Maintenance))
  | .spawned =>
    .act { shared := c, self := (.listing, []), events := [.entered .listDescriptors] }
  | .listing =>
    .awaiting .listDescriptors fun a =>
      { shared := c, self := (afterListing c.settings a, []) }
  | .publishing r => go { c with registry := some r } (.loaded r)
  | .loaded r => go (c.advance .extensionsLoaded) (.starting r)
  | .starting r => go (c.advance .initializing) (.assembling (.ofRegistry r))
  | .assembling a =>
    match a.remaining with
    | [] => go c (.caching a.finish)
    | d :: rest =>
      .act { shared := c, self := (.opening a d rest, []), events := [.entered (.openIndex d)] }
  | .opening a d rest =>
    .awaiting (.openIndex d) fun ans => { shared := c, self := (afterOpening a d rest ans, []) }
  | .caching cfg => go { c with state := some cfg } (.marking cfg .reading)
  | .marking cfg b =>
    (b.next c).map fun p =>
      { shared := p.shared
        self := (match p.self with
          | .go b => .marking cfg b
          | .stop (.returned true) => .marked cfg
          | .stop (.returned false) => .resolving (.ok cfg)
          | .stop (.panicked p) => .unwound p, [])
        events := p.events }
  | .marked cfg => go (c.advance .initialized) (.resolving (.ok cfg))
  | .resolving o =>
    go { c with outcome := c.outcome.resolve o }
      (match o with
        | .ok _ => .confirming .looking
        | .error _ => .ended)
  | .confirming e =>
    match e.next c with
    | (c, .go e) => go c (.confirming e)
    | (c, .stop k) => .act { shared := c, self := (.ended, [{ promise := k }]) }
  | .ended => .blocked
  | .unwound _ => .blocked

end Genesis

end IndexCoordinator
