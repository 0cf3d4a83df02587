import IndexCoordinator.Cycle.Work
import IndexCoordinator.Proofs.Execution

/-!
# Moves of the work on a cycle

`Work.next` as a relation: one constructor for every way to move.

* `Rebuild.Moves`      one move of the building of an evaluator, whoever builds it;
* `Poll.Moves`         one move of a caller that waits for the configuration, in its thread or as a
                       future;
* `CycleCall.operation`, `CycleCall.wait?`   what a call is about, and where it waits;
* `Work.Moves`         one move of a process on a cycle, with `Work.moves_of_next`.
-/

namespace IndexCoordinator

/-! ## building an evaluator -/

namespace Rebuild

inductive Moves (answer : Answering) (c : Cycle) : Rebuild → Part → Prop where
  | missing : c.registry = none →
      Moves answer c .reading { shared := c, self := .stop (.returned false) }
  | ask {r : Registry} : c.registry = some r →
      Moves answer c .reading
        { shared := c, self := .go (.asking r), events := [.entered .registeredFileTypes] }
  | told {r : Registry} {types : List FileType} :
      answer .registeredFileTypes = .returned types →
      Moves answer c (.asking r)
        { shared := c
          self := .go (.storing (Evaluator.ofRegistry r types c.settings.fileSizeLimit))
          events := [.left .registeredFileTypes .completed] }
  | panicked {r : Registry} {p : PanicPayload} : answer .registeredFileTypes = .panicked p →
      Moves answer c (.asking r)
        { shared := c
          self := .stop (.panicked p)
          events := [.left .registeredFileTypes .panicked] }
  | store {e : Evaluator} :
      Moves answer c (.storing e)
        { shared := { c with evaluator := some e }, self := .stop (.returned true) }

theorem moves_of_next {answer : Answering} {c : Cycle} {b : Rebuild} {p : Part}
    (h : (b.next c).under answer = some p) : Moves answer c b p := by
  cases b with
  | reading =>
    unfold next at h
    cases hr : c.registry with
    | none =>
      simp only [hr, Move.under_act, Option.some.injEq] at h
      exact h ▸ .missing hr
    | some r =>
      simp only [hr, Move.under_act, Option.some.injEq] at h
      exact h ▸ .ask hr
  | asking r =>
    simp only [next, Move.under_awaiting, Option.some.injEq] at h
    cases ha : answer .registeredFileTypes with
    | returned types =>
      rw [ha] at h
      exact h ▸ .told ha
    | panicked p =>
      rw [ha] at h
      exact h ▸ .panicked ha
  | storing e =>
    simp only [next, Move.under_act, Option.some.injEq] at h
    exact h ▸ .store

end Rebuild

/-! ## waiting for the configuration -/

/-- where a future would stand that has come as far as a caller in its thread -/
def Await.position : Await → Poll
  | .reading => .reading
  | .parked => .looking
  | .storing cfg => .storing cfg

namespace Poll

/-- one move of a caller that waits for the configuration.  In its thread it looks at the promise
and at its token at once (`abandon`), as a future one after the other (`doubt`, `cancel`). -/
inductive Moves (fired : Bool) (c : Cycle) :
    Poll → Cycle → Turn Poll ConfigurationResult → Prop where
  | found {cfg : IndexConfiguration} : c.state = some cfg →
      Moves fired c .reading c (.stop (.ok cfg))
  | missing : c.state = none → Moves fired c .reading c (.go .looking)
  | received {cfg : IndexConfiguration} : c.outcome.slot = some (.ok cfg) →
      Moves fired c .looking c (.go (.storing cfg))
  | refused {e : BuildError} : c.outcome.slot = some (.error e) →
      Moves fired c .looking c (.stop (.error (.configuration e)))
  | abandon : c.outcome.slot = none → fired = true →
      Moves fired c .looking c (.stop (.error .cancelled))
  | doubt : c.outcome.slot = none → Moves fired c .looking c (.go .doubting)
  | cancel : fired = true → Moves fired c .doubting c (.stop (.error .cancelled))
  | sleep : fired = false → Moves fired c .doubting c (.go .sleeping)
  | wake : Moves fired c .sleeping c (.go .looking)
  | store {cfg : IndexConfiguration} :
      Moves fired c (.storing cfg) { c with state := some cfg } (.stop (.ok cfg))

section
variable {fired : Bool} {c c' : Cycle}

theorem moves_of_next {p : Poll} {t : Turn Poll ConfigurationResult}
    (h : p.next fired c = some (c', t)) : Moves fired c p c' t := by
  cases p with
  | reading =>
    cases hs : c.state <;> simp only [next, hs] at h <;> cases h
    · exact .missing hs
    · exact .found hs
  | looking =>
    obtain hs | ⟨e | cfg, hs⟩ := Option.eq_none_or_eq_some c.outcome.slot <;>
      simp only [next, hs] at h <;> cases h
    · exact .doubt hs
    · exact .refused hs
    · exact .received hs
  | doubting =>
    cases fired <;> cases h
    · exact .sleep rfl
    · exact .cancel rfl
  | sleeping =>
    simp only [next] at h
    split at h <;> cases h
    exact .wake
  | storing cfg =>
    cases h
    exact .store

end

end Poll

section
variable {fired : Bool} {c c' : Cycle} {a : Await}

theorem Await.moves_of_go {a' : Await} (h : a.next fired c = some (c', .go a')) :
    Poll.Moves fired c a.position c' (.go a'.position) := by
  cases a with
  | reading =>
    cases hs : c.state <;> simp only [next, hs] at h <;> cases h
    exact .missing hs
  | parked =>
    obtain hs | ⟨e | cfg, hs⟩ := Option.eq_none_or_eq_some c.outcome.slot <;>
      simp only [next, Promise.look, hs] at h
    · cases fired <;> cases h
    · cases h
    · cases h
      exact .received hs
  | storing cfg => cases h

theorem Await.moves_of_stop {r : ConfigurationResult} (h : a.next fired c = some (c', .stop r)) :
    Poll.Moves fired c a.position c' (.stop r) := by
  cases a with
  | reading =>
    cases hs : c.state <;> simp only [next, hs] at h <;> cases h
    exact .found hs
  | parked =>
    obtain hs | ⟨e | cfg, hs⟩ := Option.eq_none_or_eq_some c.outcome.slot <;>
      simp only [next, Promise.look, hs] at h
    · cases hf : fired <;> simp only [hf] at h <;> cases h
      exact .abandon hs rfl
    · cases h
      exact .refused hs
    · cases h
  | storing cfg =>
    cases h
    exact .store

end

/-! ## calls -/

/-- the operations that callers may ask for -/
inductive Operation where
  | submit
  | ensure
  | resetHints
  | markInitialized
  | loadExtensions
  | setState
  | awaitConfiguration
  | pollConfiguration
  | awaitInitialized
  | awaitAll
  | shutDown
  | update
  | require
  | view
  | findTask
deriving DecidableEq

namespace CycleCall

def operation : CycleCall → Operation
  | .submitting _ => .submit
  | .ensuring _ => .ensure
  | .resettingHints _ => .resetHints
  | .markingInitialized _ => .markInitialized
  | .marked => .markInitialized
  | .loadingExtensions => .loadExtensions
  | .settingState _ => .setState
  | .awaitingConfiguration _ => .awaitConfiguration
  | .pollingConfiguration _ => .pollConfiguration
  | .awaitingInitialized _ => .awaitInitialized
  | .awaitingAll _ => .awaitAll
  | .shuttingDown _ => .shutDown
  | .locating _ _ => .update
  | .updating _ _ => .update
  | .requiring _ => .require
  | .viewing _ => .view
  | .findingTask _ => .findTask

def wait? : CycleCall → Option Poll
  | .awaitingConfiguration a => some a.position
  | .pollingConfiguration p => some p
  | .awaitingInitialized a => some a.position
  | .awaitingAll (.configuration a) => some a.position
  | _ => none

def afterWait (r : ConfigurationResult) : CycleCall → Work
  | .awaitingInitialized _ => .ended (waited (r.map fun _ => ()))
  | .awaitingAll _ =>
    match r with
    | .ok _ => .call (.awaitingAll .loading)
    | .error e => .ended (.failed e)
  | _ => .ended (awaited r)

def required : Outcome (List IndexId) → Reply
  | .returned ids => .ids ids
  | .panicked p => .panicked p

def afterReset : Turn Rebuild (Outcome Bool) → Work
  | .go b => .call (.resettingHints b)
  | .stop (.returned _) => .ended .done
  | .stop (.panicked p) => .ended (.panicked p)

def afterMarking : Turn Rebuild (Outcome Bool) → Work
  | .go b => .call (.markingInitialized b)
  | .stop (.returned true) => .call .marked
  | .stop (.returned false) => .ended .done
  | .stop (.panicked p) => .ended (.panicked p)

end CycleCall

namespace Genesis

def afterMarking (cfg : IndexConfiguration) : Turn Rebuild (Outcome Bool) → Genesis
  | .go b => .marking cfg b
  | .stop (.returned true) => .marked cfg
  | .stop (.returned false) => .resolving (.ok cfg)
  | .stop (.panicked p) => .unwound p

def afterResolving : BuildOutcome → Genesis
  | .ok _ => .confirming .looking
  | .error _ => .ended

end Genesis

/-! ## processes -/

namespace Work

/-- one move of a process on a cycle: the new cells, the new position, what it starts, and the
events -/
inductive Moves (fired : Bool) (answer : Answering) (c : Cycle) :
    Work → Progress Cycle Work → Prop where
  -- the build
  | list : Moves fired answer c (.genesis .spawned)
      { shared := c, self := .genesis .listing, events := [.entered .listDescriptors] }
  | listed : Moves fired answer c (.genesis .listing)
      { shared := c
        self := .genesis (Genesis.afterListing c.settings (answer .listDescriptors))
        events := [.left .listDescriptors (Request.ending _ (answer .listDescriptors))] }
  | publish {r : Registry} : Moves fired answer c (.genesis (.publishing r))
      { shared := { c with registry := some r }, self := .genesis (.loaded r) }
  | load {r : Registry} : Moves fired answer c (.genesis (.loaded r))
      { shared := c.advance .extensionsLoaded, self := .genesis (.starting r) }
  | begin {r : Registry} : Moves fired answer c (.genesis (.starting r))
      { shared := c.advance .initializing, self := .genesis (.assembling (.ofRegistry r)) }
  | enterIndex {a : Assembly} {d : IndexDescriptor} {rest : List IndexDescriptor} :
      a.remaining = d :: rest →
      Moves fired answer c (.genesis (.assembling a))
        { shared := c, self := .genesis (.opening a d rest), events := [.entered (.openIndex d)] }
  | opened {a : Assembly} {d : IndexDescriptor} {rest : List IndexDescriptor} :
      Moves fired answer c (.genesis (.opening a d rest))
        { shared := c
          self := .genesis (Genesis.afterOpening a d rest (answer (.openIndex d)))
          events := [.left (.openIndex d) (Request.ending _ (answer (.openIndex d)))] }
  | assembled {a : Assembly} : a.remaining = [] →
      Moves fired answer c (.genesis (.assembling a))
        { shared := c, self := .genesis (.caching a.finish) }
  | cache {cfg : IndexConfiguration} : Moves fired answer c (.genesis (.caching cfg))
      { shared := { c with state := some cfg }, self := .genesis (.marking cfg .reading) }
  | mark {cfg : IndexConfiguration} {b : Rebuild} {p : Rebuild.Part} :
      Rebuild.Moves answer c b p →
      Moves fired answer c (.genesis (.marking cfg b))
        { shared := p.shared
          self := .genesis (Genesis.afterMarking cfg p.self)
          events := p.events }
  | marked {cfg : IndexConfiguration} : Moves fired answer c (.genesis (.marked cfg))
      { shared := c.advance .initialized, self := .genesis (.resolving (.ok cfg)) }
  | resolve {o : BuildOutcome} : Moves fired answer c (.genesis (.resolving o))
      { shared := { c with outcome := c.outcome.resolve o }
        self := .genesis (Genesis.afterResolving o) }
  | confirm {e e' : Ensure} {c' : Cycle} : e.next c = (c', .go e') →
      Moves fired answer c (.genesis (.confirming e))
        { shared := c', self := .genesis (.confirming e') }
  | confirmed {e : Ensure} {c' : Cycle} {k : Nat} : e.next c = (c', .stop k) →
      Moves fired answer c (.genesis (.confirming e))
        { shared := c', self := .genesis .ended, spawned := [.maintenance { promise := k }] }
  -- a maintenance task
  | maintain {m : Maintenance} {p : Progress Cycle Maintenance} :
      (m.next c).under answer = some p →
      Moves fired answer c (.maintenance m) (p.map id .maintenance)
  -- what has to do with the build and its confirmation
  | submit {s s' : Submission} {c' : Cycle} : s.next c = (c', .go s') →
      Moves fired answer c (.call (.submitting s))
        { shared := c', self := .call (.submitting s') }
  | submitted {s : Submission} {c' : Cycle} {started : Bool} : s.next c = (c', .stop started) →
      Moves fired answer c (.call (.submitting s))
        { shared := c'
          self := .ended .done
          spawned := if started then [.genesis .spawned] else [] }
  | ensure {e e' : Ensure} {c' : Cycle} : e.next c = (c', .go e') →
      Moves fired answer c (.call (.ensuring e)) { shared := c', self := .call (.ensuring e') }
  | ensured {e : Ensure} {c' : Cycle} {k : Nat} : e.next c = (c', .stop k) →
      Moves fired answer c (.call (.ensuring e))
        { shared := c', self := .ended .done, spawned := [.maintenance { promise := k }] }
  -- what callers do to the cells
  | reset {b : Rebuild} {p : Rebuild.Part} : Rebuild.Moves answer c b p →
      Moves fired answer c (.call (.resettingHints b))
        { shared := p.shared, self := CycleCall.afterReset p.self, events := p.events }
  | remark {b : Rebuild} {p : Rebuild.Part} : Rebuild.Moves answer c b p →
      Moves fired answer c (.call (.markingInitialized b))
        { shared := p.shared, self := CycleCall.afterMarking p.self, events := p.events }
  | remarked : Moves fired answer c (.call .marked)
      { shared := c.advance .initialized, self := .ended .done }
  | reload : Moves fired answer c (.call .loadingExtensions)
      { shared := c.advance .extensionsLoaded, self := .ended .done }
  | setState {cfg : IndexConfiguration} : Moves fired answer c (.call (.settingState cfg))
      { shared := { c with state := some cfg }, self := .ended .done }
  | shut {s s' : Shutdown} {l : Lifecycle} : s.next c.lifecycle = (l, .go s') →
      Moves fired answer c (.call (.shuttingDown s))
        { shared := { c with lifecycle := l }, self := .call (.shuttingDown s') }
  | shutDown {s : Shutdown} {l : Lifecycle} {won : Bool} : s.next c.lifecycle = (l, .stop won) →
      Moves fired answer c (.call (.shuttingDown s))
        { shared := { c with lifecycle := l }, self := .ended (.flag won) }
  -- waits
  | wait {k k' : CycleCall} {p p' : Poll} {c' : Cycle} :
      k.wait? = some p → Poll.Moves fired c p c' (.go p') →
      k'.wait? = some p' → k'.operation = k.operation →
      Moves fired answer c (.call k) { shared := c', self := .call k' }
  | waited {k : CycleCall} {p : Poll} {c' : Cycle} {r : ConfigurationResult} :
      k.wait? = some p → Poll.Moves fired c p c' (.stop r) →
      Moves fired answer c (.call k) { shared := c', self := k.afterWait r }
  | loadSlot : Moves fired answer c (.call (.awaitingAll .loading))
      { shared := c, self := .call (.awaitingAll (.parked c.slot)) }
  | confirmedAll {k : Nat} {r : Except IndexError Unit} :
      r = .ok () ∨ r = .error .cancelled ∧ fired = true →
      Moves fired answer c (.call (.awaitingAll (.parked k)))
        { shared := c, self := .ended (CycleCall.waited r) }
  -- documents
  | untasked {index : IndexId} {documents : List UnsavedDocument} :
      c.updateTask? index = none →
      Moves fired answer c (.call (.locating index documents))
        { shared := c, self := .ended (.flag false) }
  | located {index : IndexId} {documents : List UnsavedDocument} {task : DocumentUpdateTask} :
      c.updateTask? index = some task →
      Moves fired answer c (.call (.locating index documents))
        { shared := c
          self := .call (.updating (.ofDocuments task.index documents) (.flag true)) }
  | update {b : Batch} {success : Reply} {p : Progress InFlight Batch} :
      b.result? = none → (b.next fired (c.inFlightOf b.index)).under answer = some p →
      Moves fired answer c (.call (.updating b success))
        { shared := c.setInFlight b.index p.shared
          self := .call (.updating p.self success)
          events := p.events }
  | updated {b : Batch} {success : Reply} {r : BatchEnd} : b.result? = some r →
      Moves fired answer c (.call (.updating b success))
        { shared := c, self := .ended (CycleCall.updated success r) }
  -- lookups
  | reject {k : CycleCall} : k.operation = .require ∨ k.operation = .view → c.evaluator = none →
      Moves fired answer c (.call k) { shared := c, self := .ended (.failed .notInitialized) }
  | require {file : IndexedFile} {e : Evaluator} : c.evaluator = some e →
      Moves fired answer c (.call (.requiring file))
        { shared := c
          self := .ended (CycleCall.required (e.requiredIndexes file).outcome)
          events := (e.requiredIndexes file).notes.map .noted }
  | view {t : FileType} {e : Evaluator} : c.evaluator = some e →
      Moves fired answer c (.call (.viewing t))
        { shared := c
          self := .ended (.views (e.requiredForType t).1 (e.requiredForType t).2) }
  | findTask {index : IndexId} : Moves fired answer c (.call (.findingTask index))
      { shared := c, self := .ended (.task (c.updateTask? index)) }

section
variable {fired : Bool} {answer : Answering} {c : Cycle}

theorem moves_of_genesis {g : Genesis} {p : Progress Cycle (Genesis × List Maintenance)}
    (h : (g.next c).under answer = some p) :
    Moves fired answer c (.genesis g)
      { shared := p.shared
        self := .genesis p.self.1
        spawned := p.self.2.map .maintenance
        events := p.events } := by
  cases g with
  | spawned =>
    cases h
    exact .list
  | listing =>
    cases h
    exact .listed
  | publishing r =>
    cases h
    exact .publish
  | loaded r =>
    cases h
    exact .load
  | starting r =>
    cases h
    exact .begin
  | assembling a =>
    cases hr : a.remaining with
    | nil =>
      simp only [Genesis.next, hr] at h
      cases h
      exact .assembled hr
    | cons d rest =>
      simp only [Genesis.next, hr] at h
      cases h
      exact .enterIndex hr
  | opening a d rest =>
    cases h
    exact .opened
  | caching cfg =>
    cases h
    exact .cache
  | marking cfg b =>
    simp only [Genesis.next, Move.under_map, Option.map_eq_some_iff] at h
    obtain ⟨p', hp, rfl⟩ := h
    exact .mark (Rebuild.moves_of_next hp)
  | marked cfg =>
    cases h
    exact .marked
  | resolving o =>
    cases h
    exact .resolve
  | confirming e =>
    simp only [Genesis.next] at h
    rcases hn : e.next c with ⟨c', e' | k⟩ <;> rw [hn] at h <;> cases h
    · exact .confirm hn
    · exact .confirmed hn
  | ended | unwound p => cases h

theorem moves_of_awaitAll {a : AwaitAll} {q : Progress Cycle Work}
    (h : ((CycleCall.awaitingAll a).next fired c).under answer = some q) :
    Moves fired answer c (.call (.awaitingAll a)) q := by
  cases a with
  | configuration a =>
    simp only [CycleCall.next, AwaitAll.next] at h
    rcases hn : a.next fired c with _ | ⟨c', a' | e | cfg⟩ <;> rw [hn] at h <;> cases h
    · exact .wait rfl (Await.moves_of_go hn) rfl rfl
    · exact .waited rfl (Await.moves_of_stop hn)
    · exact .waited rfl (Await.moves_of_stop hn)
  | loading =>
    cases h
    exact .loadSlot
  | parked k =>
    simp only [CycleCall.next, AwaitAll.next, Promise.look] at h
    cases hs : (c.confirmation k).slot with
    | some u =>
      simp only [hs] at h
      cases h
      exact .confirmedAll (.inl rfl)
    | none =>
      cases hf : fired <;> simp only [hs, hf] at h <;> cases h
      exact .confirmedAll (.inr ⟨rfl, rfl⟩)

theorem moves_of_call {k : CycleCall} {q : Progress Cycle Work}
    (h : (k.next fired c).under answer = some q) : Moves fired answer c (.call k) q := by
  cases k with
  | submitting s =>
    simp only [CycleCall.next] at h
    rcases hn : s.next c with ⟨c', s' | _ | _⟩ <;> rw [hn] at h <;> cases h
    · exact .submit hn
    · exact .submitted hn
    · exact .submitted hn
  | ensuring e =>
    simp only [CycleCall.next] at h
    rcases hn : e.next c with ⟨c', e' | k⟩ <;> rw [hn] at h <;> cases h
    · exact .ensure hn
    · exact .ensured hn
  | resettingHints b =>
    simp only [CycleCall.next, Move.under_map, Option.map_eq_some_iff] at h
    obtain ⟨p, hp, rfl⟩ := h
    exact .reset (Rebuild.moves_of_next hp)
  | markingInitialized b =>
    simp only [CycleCall.next, Move.under_map, Option.map_eq_some_iff] at h
    obtain ⟨p, hp, rfl⟩ := h
    exact .remark (Rebuild.moves_of_next hp)
  | marked =>
    cases h
    exact .remarked
  | loadingExtensions =>
    cases h
    exact .reload
  | settingState cfg =>
    cases h
    exact .setState
  | awaitingConfiguration a | awaitingInitialized a =>
    simp only [CycleCall.next] at h
    rcases hn : a.next fired c with _ | ⟨c', a' | r⟩ <;> rw [hn] at h <;> cases h
    · exact .wait rfl (Await.moves_of_go hn) rfl rfl
    · exact .waited rfl (Await.moves_of_stop hn)
  | pollingConfiguration p =>
    simp only [CycleCall.next] at h
    rcases hn : p.next fired c with _ | ⟨c', p' | r⟩ <;> rw [hn] at h <;> cases h
    · exact .wait rfl (Poll.moves_of_next hn) rfl rfl
    · exact .waited rfl (Poll.moves_of_next hn)
  | awaitingAll a => exact moves_of_awaitAll h
  | shuttingDown s =>
    simp only [CycleCall.next] at h
    rcases hn : s.next c.lifecycle with ⟨l, s' | won⟩ <;> rw [hn] at h <;> cases h
    · exact .shut hn
    · exact .shutDown hn
  | locating index documents =>
    simp only [CycleCall.next] at h
    cases ht : c.updateTask? index <;> rw [ht] at h <;> cases h
    · exact .untasked ht
    · exact .located ht
  | updating b success =>
    simp only [CycleCall.next] at h
    cases hr : b.result? with
    | some r =>
      rw [hr] at h
      cases h
      exact .updated hr
    | none =>
      simp only [hr, Move.under_map, Option.map_eq_some_iff] at h
      obtain ⟨p, hp, rfl⟩ := h
      exact .update hr hp
  | requiring file =>
    simp only [CycleCall.next] at h
    cases he : c.evaluator with
    | none =>
      rw [he] at h
      cases h
      exact .reject (.inl rfl) he
    | some e =>
      have hm : Moves fired answer c (.call (.requiring file)) _ := .require he
      rw [he] at h
      cases h
      cases ho : (e.requiredIndexes file).outcome <;> rw [ho] at hm <;> exact hm
  | viewing t =>
    simp only [CycleCall.next] at h
    cases he : c.evaluator <;> rw [he] at h <;> cases h
    · exact .reject (.inr rfl) he
    · exact .view he
  | findingTask index =>
    cases h
    exact .findTask

/-- **Every move of a process on a cycle is one of these.** -/
theorem moves_of_next {w : Work} {q : Progress Cycle Work}
    (h : (next fired c w).under answer = some q) : Moves fired answer c w q := by
  cases w with
  | genesis g =>
    simp only [next, Move.under_map, Option.map_eq_some_iff] at h
    obtain ⟨p, hp, rfl⟩ := h
    exact moves_of_genesis hp
  | maintenance m =>
    simp only [next, Move.under_map, Option.map_eq_some_iff] at h
    obtain ⟨p, hp, rfl⟩ := h
    exact .maintain hp
  | call k => exact moves_of_call h
  | ended r => cases h

end

end Work

end IndexCoordinator
