import IndexCoordinator.Proofs.Cycle.Publication

/-!
# A promised configuration is ready

The build resolves its promise with a configuration after it has published everything that a lookup
needs.  Callers may put other configurations into the cell meanwhile, but nobody empties a cell, and
nobody else publishes a registry.

* `Cycle.Ready`          registry, configuration and evaluator are there;
* `Cycle.Carries`        what the build has brought about where it stands, with one case per
                         position;
* `Execution.ready_of_slot`   a cycle whose promise holds a configuration is ready.
-/

namespace IndexCoordinator

namespace Cycle

/-- the registry of a configuration is published, and a configuration and an evaluator are there -/
structure Ready (c : Cycle) (cfg : IndexConfiguration) : Prop where
  registry : c.registry = some cfg.registry
  state : c.state.isSome = true
  evaluator : c.evaluator.isSome = true

/-- what the build has brought about where it stands, whatever callers do -/
def Carries (c : Cycle) : Genesis → Prop
  | .loaded r => c.registry = some r
  | .starting r => c.registry = some r
  | .assembling a => c.registry = some a.registry
  | .opening a _ _ => c.registry = some a.registry
  | .caching cfg => c.registry = some cfg.registry
  | .marking cfg _ => c.registry = some cfg.registry ∧ c.state.isSome = true
  | .marked cfg => c.Ready cfg
  | .resolving (.ok cfg) => c.Ready cfg
  | .confirming _ => ∀ cfg, c.outcome.slot = some (.ok cfg) → c.Ready cfg
  | .ended => ∀ cfg, c.outcome.slot = some (.ok cfg) → c.Ready cfg
  | _ => True

/-- registry and outcome stay, and no other cell is emptied -/
structure Upholds (c c' : Cycle) : Prop where
  registry : c'.registry = c.registry
  state : c.state.isSome = true → c'.state.isSome = true
  evaluator : c.evaluator.isSome = true → c'.evaluator.isSome = true
  outcome : c'.outcome.slot = c.outcome.slot

section
variable {c c' : Cycle} {cfg : IndexConfiguration} {g : Genesis}

theorem Upholds.ready (h : c.Upholds c') (hr : c.Ready cfg) : c'.Ready cfg :=
  ⟨h.registry.trans hr.registry, h.state hr.state, h.evaluator hr.evaluator⟩

theorem Upholds.carries (h : c.Upholds c') (hc : c.Carries g) : c'.Carries g := by
  cases g with
  | spawned | listing | publishing | unwound => trivial
  | loaded | starting | assembling | opening | caching => exact h.registry.trans hc
  | marking => exact ⟨h.registry.trans hc.1, h.state hc.2⟩
  | marked => exact h.ready hc
  | resolving o =>
    cases o with
    | ok => exact h.ready hc
    | error => trivial
  | confirming | ended => exact fun cfg hslot => h.ready (hc cfg (h.outcome.symm.trans hslot))

end

end Cycle

/-! ## one move -/

namespace Work

variable {w : Work} {c c' : Cycle} {fired : Bool} {answer : Answering} {q : Progress Cycle Work}
  {g g' : Genesis}

theorem Effect.upholds (h : w.Effect c c') (hpublish : ∀ r, w ≠ .genesis (.publishing r))
    (hresolve : ∀ o, w ≠ .genesis (.resolving o)) : c.Upholds c' where
  registry := by
    obtain h | ⟨r, hw, _⟩ := h.registry
    · exact h
    · exact absurd hw (hpublish r)
  state hs := by
    obtain h | ⟨cfg, _, h⟩ := h.state <;> rw [h]
    · exact hs
    · rfl
  evaluator he := by
    obtain h | ⟨e, _, h⟩ := h.evaluator <;> rw [h]
    · exact he
    · rfl
  outcome := by
    obtain h | ⟨o, hw, _⟩ := h.outcome
    · rw [h]
    · exact absurd hw (hresolve o)

theorem carries_afterListing (c : Cycle) (settings : IndexingSettings)
    (a : Outcome (Except ExtensionError (List IndexDescriptor))) :
    c.Carries (Genesis.afterListing settings a) := by
  unfold Genesis.afterListing
  split
  · split <;> trivial
  · trivial
  · trivial

theorem carries_afterOpening {a : Assembly} (h : c.registry = some a.registry)
    (d : IndexDescriptor) (rest : List IndexDescriptor)
    (ans : Outcome (Except StorageError Unit)) : c.Carries (Genesis.afterOpening a d rest ans) := by
  unfold Genesis.afterOpening
  split
  · exact h
  · trivial
  · trivial

/-- **One move of the build.**  Its promise is empty before it resolves it. -/
theorem Moves.carries (h : Moves fired answer c (.genesis g) q) (hc : c.Carries g)
    (hopen : g.isOpen = true → c.outcome.slot = none) (hq : q.self = .genesis g') :
    q.shared.Carries g' := by
  cases h with
  | list =>
    cases hq
    trivial
  | listed =>
    cases hq
    exact carries_afterListing _ _ _
  | publish =>
    cases hq
    rfl
  | load | begin | enterIndex | assembled =>
    cases hq
    exact hc
  | opened =>
    cases hq
    exact carries_afterOpening hc _ _ _
  | cache =>
    cases hq
    exact ⟨hc, rfl⟩
  | mark hb =>
    cases hb with
    | missing hnone => cases hnone.symm.trans hc.1
    | ask | told =>
      cases hq
      exact hc
    | panicked =>
      cases hq
      trivial
    | store =>
      cases hq
      exact ⟨hc.1, hc.2, rfl⟩
  | marked =>
    cases hq
    exact ⟨hc.registry, hc.state, hc.evaluator⟩
  | @resolve o =>
    have hslot : (c.outcome.resolve o).slot = some o := by
      rw [Promise.slot_resolve, hopen rfl]
      rfl
    cases hq
    cases o with
    | ok cfg =>
      intro cfg' hslot'
      cases hslot.symm.trans hslot'
      exact ⟨hc.registry, hc.state, hc.evaluator⟩
    | error e =>
      intro cfg' hslot'
      cases hslot.symm.trans hslot'
  | @confirm e _ _ hn =>
    cases hq
    have he := (Effect.of_ensure (w := .genesis (.confirming e)) c e).1
    rw [hn] at he
    exact (he.upholds nofun nofun).carries (g := .confirming _) hc
  | @confirmed e _ _ hn =>
    cases hq
    have he := (Effect.of_ensure (w := .genesis (.confirming e)) c e).1
    rw [hn] at he
    exact (he.upholds nofun nofun).carries (g := .ended) hc

end Work

/-! ## every moment -/

namespace Execution

variable {E : Builds} {t : Nat}

theorem Stands.carries {g : Genesis} (h : E.Stands t g) : (E.cells t).Carries g := by
  induction t generalizing g with
  | zero =>
    cases h with
    | build hi => cases hi
    | ahead => trivial
  | succ t ih =>
    obtain ⟨i, g, fired, answer, q, hm, hq⟩ | ⟨h', he | ⟨i, w, fired, answer, q, hm, hw⟩⟩ := h.back
    · rw [hm.cells_succ]
      exact hm.work.carries (ih (.build hm.proc)) (slot_of_isOpen hm.proc) hq
    · rw [he]
      exact ih h'
    · rw [hm.cells_succ]
      exact ((Work.of_next hm.leads).1.upholds (fun _ => hw _) fun _ => hw _).carries (ih h')

/-- **A cycle whose promise holds a configuration is ready,** whoever sets configurations. -/
theorem ready_of_slot {cfg : IndexConfiguration}
    (h : (E.cells t).outcome.slot = some (.ok cfg)) : (E.cells t).Ready cfg := by
  obtain ⟨i, g, hi, hg⟩ := exists_resolved h
  have hcarries := (Stands.build hi).carries
  cases g with
  | confirming | ended => exact hcarries cfg h
  | _ => cases hg

end Execution

end IndexCoordinator
