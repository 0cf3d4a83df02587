import IndexCoordinator.Proofs.Cycle.Callers
import IndexCoordinator.Proofs.Cycle.Resolution
import IndexCoordinator.Proofs.Registry.Registration

/-!
# What a build has published

The build publishes registry, configuration, evaluator and outcome one after the other.  So where
it stands says what the cells hold, whoever else moves, as long as no caller sets the configuration.

* `Execution.Stands`         where the build stands, from the start on;
* `Cycle.Shows`              what the cells hold then, with one case per position;
* `Execution.Stands.shows`   they hold it at every moment;
* `Execution.registry_stays`, `Execution.state_stays`   what is published stays.
-/

namespace IndexCoordinator

/-! ## the cells -/

namespace Cycle

/-- neither a configuration nor an outcome is published -/
structure Bare (c : Cycle) : Prop where
  state : c.state = none
  outcome : c.outcome.slot = none

/-- a configuration is published, and so is its registry -/
structure Caches (c : Cycle) (cfg : IndexConfiguration) : Prop where
  registry : c.registry = some cfg.registry
  state : c.state = some cfg

/-- a configuration is published, and an evaluator beside it -/
structure Offers (c : Cycle) (cfg : IndexConfiguration) : Prop extends c.Caches cfg where
  evaluator : c.evaluator.isSome = true

/-- what the cells hold while the build stands at a position -/
def Shows (c : Cycle) : Genesis → Prop
  | .spawned => c.registry = none ∧ c.Bare
  | .listing => c.registry = none ∧ c.Bare
  | .publishing _ => c.registry = none ∧ c.Bare
  | .loaded r => c.registry = some r ∧ c.Bare
  | .starting r => c.registry = some r ∧ c.Bare
  | .assembling a => c.registry = some a.registry ∧ c.Bare
  | .opening a _ _ => c.registry = some a.registry ∧ c.Bare
  | .caching cfg => c.registry = some cfg.registry ∧ c.Bare
  | .marking cfg _ => c.Caches cfg ∧ c.outcome.slot = none
  | .marked cfg => c.Offers cfg ∧ c.outcome.slot = none
  | .resolving (.ok cfg) => c.Offers cfg ∧ c.outcome.slot = none
  | .resolving (.error _) => c.Bare
  | .confirming _ => ∃ cfg, c.Offers cfg ∧ c.outcome.slot = some (.ok cfg)
  | .ended =>
    (∃ cfg, c.Offers cfg ∧ c.outcome.slot = some (.ok cfg)) ∨
      c.state = none ∧ ∃ e, c.outcome.slot = some (.error e)
  | .unwound _ => (∃ cfg, c.Caches cfg) ∧ c.outcome.slot = none

/-- registry, configuration and outcome stay, and an evaluator is not taken away -/
structure Rests (c c' : Cycle) : Prop where
  registry : c'.registry = c.registry
  state : c'.state = c.state
  outcome : c'.outcome.slot = c.outcome.slot
  evaluator : c.evaluator.isSome = true → c'.evaluator.isSome = true

section
variable {c c' : Cycle} {cfg : IndexConfiguration} {g : Genesis}

theorem Rests.bare (h : c.Rests c') (hb : c.Bare) : c'.Bare :=
  ⟨h.state.trans hb.state, h.outcome.trans hb.outcome⟩

theorem Rests.caches (h : c.Rests c') (hc : c.Caches cfg) : c'.Caches cfg :=
  ⟨h.registry.trans hc.registry, h.state.trans hc.state⟩

theorem Rests.offers (h : c.Rests c') (hc : c.Offers cfg) : c'.Offers cfg :=
  ⟨h.caches hc.toCaches, h.evaluator hc.evaluator⟩

theorem Rests.shows (h : c.Rests c') (hs : c.Shows g) : c'.Shows g := by
  cases g with
  | spawned | listing | publishing | loaded | starting | assembling | opening | caching =>
    exact ⟨h.registry.trans hs.1, h.bare hs.2⟩
  | marking => exact ⟨h.caches hs.1, h.outcome.trans hs.2⟩
  | marked => exact ⟨h.offers hs.1, h.outcome.trans hs.2⟩
  | resolving o =>
    cases o with
    | ok => exact ⟨h.offers hs.1, h.outcome.trans hs.2⟩
    | error => exact h.bare hs
  | confirming =>
    obtain ⟨cfg, ho, hslot⟩ := hs
    exact ⟨cfg, h.offers ho, h.outcome.trans hslot⟩
  | ended =>
    obtain ⟨cfg, ho, hslot⟩ | ⟨hstate, e, hslot⟩ := hs
    · exact .inl ⟨cfg, h.offers ho, h.outcome.trans hslot⟩
    · exact .inr ⟨h.state.trans hstate, e, h.outcome.trans hslot⟩
  | unwound =>
    obtain ⟨⟨cfg, hc⟩, hslot⟩ := hs
    exact ⟨⟨cfg, h.caches hc⟩, h.outcome.trans hslot⟩

theorem Shows.caches (h : c.Shows g) (hstate : c.state = some cfg) : c.Caches cfg := by
  have hbare (hb : c.Bare) : c.Caches cfg := by cases hstate.symm.trans hb.state
  have hsome {cfg' : IndexConfiguration} (hc : c.Caches cfg') : c.Caches cfg := by
    cases hstate.symm.trans hc.state
    exact hc
  cases g with
  | spawned | listing | publishing | loaded | starting | assembling | opening | caching =>
    exact hbare h.2
  | marking => exact hsome h.1
  | marked => exact hsome h.1.toCaches
  | resolving o =>
    cases o with
    | ok => exact hsome h.1.toCaches
    | error => exact hbare h
  | confirming =>
    obtain ⟨_, ho, _⟩ := h
    exact hsome ho.toCaches
  | ended =>
    obtain ⟨_, ho, _⟩ | ⟨hnone, _⟩ := h
    · exact hsome ho.toCaches
    · cases hstate.symm.trans hnone
  | unwound =>
    obtain ⟨⟨_, hc⟩, _⟩ := h
    exact hsome hc

theorem Shows.offers (h : c.Shows g) (hslot : c.outcome.slot = some (.ok cfg)) : c.Offers cfg := by
  have hopen (hnone : c.outcome.slot = none) : c.Offers cfg := by
    rw [hslot] at hnone
    cases hnone
  cases g with
  | spawned | listing | publishing | loaded | starting | assembling | opening | caching =>
    exact hopen h.2.outcome
  | marking | marked | unwound => exact hopen h.2
  | resolving o =>
    cases o with
    | ok => exact hopen h.2
    | error => exact hopen h.outcome
  | confirming =>
    obtain ⟨cfg', ho, hslot'⟩ := h
    cases hslot.symm.trans hslot'
    exact ho
  | ended =>
    obtain ⟨cfg', ho, hslot'⟩ | ⟨_, e, hslot'⟩ := h <;> cases hslot.symm.trans hslot'
    exact ho

theorem Shows.state_none (h : c.Shows g) {e : BuildError}
    (hslot : c.outcome.slot = some (.error e)) : c.state = none := by
  have hopen (hnone : c.outcome.slot = none) : c.state = none := by
    rw [hslot] at hnone
    cases hnone
  cases g with
  | spawned | listing | publishing | loaded | starting | assembling | opening | caching =>
    exact hopen h.2.outcome
  | marking | marked | unwound => exact hopen h.2
  | resolving o =>
    cases o with
    | ok => exact hopen h.2
    | error => exact hopen h.outcome
  | confirming =>
    obtain ⟨cfg', _, hslot'⟩ := h
    cases hslot.symm.trans hslot'
  | ended =>
    obtain ⟨cfg', _, hslot'⟩ | ⟨hnone, _⟩ := h
    · cases hslot.symm.trans hslot'
    · exact hnone

end

end Cycle

/-! ## one move -/

namespace Work

variable {w : Work} {c c' : Cycle}

theorem Effect.registry (h : w.Effect c c') :
    c'.registry = c.registry ∨ ∃ r, w = .genesis (.publishing r) ∧ c'.registry = some r := by
  cases h with
  | publish hw => exact .inr ⟨_, hw, rfl⟩
  | shut _ hs => cases hs <;> exact .inl rfl
  | _ => exact .inl rfl

theorem Effect.state (h : w.Effect c c') :
    c'.state = c.state ∨ ∃ cfg, w.caches? = some cfg ∧ c'.state = some cfg := by
  cases h with
  | cache hw => exact .inr ⟨_, hw, rfl⟩
  | shut _ hs => cases hs <;> exact .inl rfl
  | _ => exact .inl rfl

theorem Effect.evaluator (h : w.Effect c c') :
    c'.evaluator = c.evaluator ∨ ∃ e, w.installs? = some e ∧ c'.evaluator = some e := by
  cases h with
  | install hw => exact .inr ⟨_, hw, rfl⟩
  | shut _ hs => cases hs <;> exact .inl rfl
  | _ => exact .inl rfl

/-- who publishes nothing that is not there leaves the cells as they are -/
theorem Effect.rests (h : w.Effect c c') (hpublish : ∀ r, w ≠ .genesis (.publishing r))
    (hresolve : ∀ o, w ≠ .genesis (.resolving o))
    (hcache : ∀ cfg, w.caches? = some cfg → c.state = some cfg) : c.Rests c' where
  registry := by
    obtain h | ⟨r, hw, _⟩ := h.registry
    · exact h
    · exact absurd hw (hpublish r)
  state := by
    obtain h | ⟨cfg, hw, hstate⟩ := h.state
    · exact h
    · rw [hstate, hcache cfg hw]
  outcome := by
    obtain h | ⟨o, hw, _⟩ := h.outcome
    · rw [h]
    · exact absurd hw (hresolve o)
  evaluator he := by
    obtain h | ⟨e, _, h⟩ := h.evaluator <;> rw [h]
    · exact he
    · rfl

theorem Onward.builds {w' : Work} {l : List Work} (h : Onward w w' l)
    (hl : .genesis .spawned ∈ l) : w.builds = true := by
  cases h with
  | submitted => rfl
  | built | ensured => cases List.mem_singleton.mp hl
  | _ => cases hl

theorem caches?_of_call {k : CycleCall} {cfg : IndexConfiguration}
    (h : (call k).caches? = some cfg) :
    k = .settingState cfg ∨ k.wait? = some (.storing cfg) := by
  cases k with
  | settingState cfg' =>
    cases h
    exact .inl rfl
  | _ =>
    simp only [caches?] at h
    split at h
    · next hw =>
      cases h
      exact .inr hw
    · cases h

section
variable {fired : Bool} {answer : Answering} {q : Progress Cycle Work} {g g' : Genesis}

theorem shows_afterListing (h : c.registry = none ∧ c.Bare)
    (a : Outcome (Except ExtensionError (List IndexDescriptor))) :
    c.Shows (Genesis.afterListing c.settings a) := by
  obtain (e | descriptors) | p := a
  · exact h.2
  · unfold Genesis.afterListing
    cases hr : Genesis.register c.settings descriptors with
    | ok r =>
      simp only [hr]
      exact h
    | error e =>
      simp only [hr]
      exact h.2
  · exact h.2

theorem shows_afterOpening {a : Assembly} (h : c.registry = some a.registry ∧ c.Bare)
    (d : IndexDescriptor) (rest : List IndexDescriptor)
    (ans : Outcome (Except StorageError Unit)) : c.Shows (Genesis.afterOpening a d rest ans) := by
  obtain (e | ⟨⟩) | p := ans
  · exact h.2
  · exact h
  · exact h.2

theorem Moves.shows (h : Moves fired answer c (.genesis g) q) (hs : c.Shows g)
    (hq : q.self = .genesis g') : q.shared.Shows g' := by
  cases h with
  | list | enterIndex | assembled =>
    cases hq
    exact hs
  | listed =>
    cases hq
    exact shows_afterListing hs _
  | publish =>
    cases hq
    exact ⟨rfl, hs.2.state, hs.2.outcome⟩
  | load | begin =>
    cases hq
    exact ⟨hs.1, hs.2.state, hs.2.outcome⟩
  | opened =>
    cases hq
    exact shows_afterOpening hs _ _ _
  | cache =>
    cases hq
    exact ⟨⟨hs.1, rfl⟩, hs.2.outcome⟩
  | mark hb =>
    cases hb with
    | missing hnone =>
      have hsome := hs.1.registry
      rw [hnone] at hsome
      cases hsome
    | ask | told =>
      cases hq
      exact hs
    | panicked =>
      cases hq
      exact ⟨⟨_, hs.1⟩, hs.2⟩
    | store =>
      cases hq
      exact ⟨⟨⟨hs.1.registry, hs.1.state⟩, rfl⟩, hs.2⟩
  | marked =>
    cases hq
    exact ⟨⟨⟨hs.1.registry, hs.1.state⟩, hs.1.evaluator⟩, hs.2⟩
  | @resolve o =>
    cases hq
    cases o with
    | ok cfg =>
      have hslot : (c.outcome.resolve (.ok cfg)).slot = some (.ok cfg) := by
        rw [Promise.slot_resolve, hs.2]
        rfl
      exact ⟨cfg, ⟨⟨hs.1.registry, hs.1.state⟩, hs.1.evaluator⟩, hslot⟩
    | error e =>
      have hslot : (c.outcome.resolve (.error e)).slot = some (.error e) := by
        rw [Promise.slot_resolve, hs.outcome]
        rfl
      exact .inr ⟨hs.state, e, hslot⟩
  | @confirm e _ _ hn =>
    cases hq
    have he := (Effect.of_ensure (w := .genesis (.confirming e)) c e).1
    rw [hn] at he
    exact (he.rests nofun nofun nofun).shows (g := .confirming _) hs
  | @confirmed e _ _ hn =>
    cases hq
    have he := (Effect.of_ensure (w := .genesis (.confirming e)) c e).1
    rw [hn] at he
    exact .inl ((he.rests nofun nofun nofun).shows (g := .confirming e) hs)

theorem Moves.genesis (h : Moves fired answer c (.genesis g) q) : ∃ g', q.self = .genesis g' := by
  cases h <;> exact ⟨_, rfl⟩

theorem Moves.slot {k k' : CycleCall} {cfg : IndexConfiguration}
    (h : Moves fired answer c (.call k) q) (hq : q.self = .call k')
    (hk : k'.wait? = some (.storing cfg)) : c.outcome.slot = some (.ok cfg) := by
  cases h with
  | wait _ hp hk' =>
    cases hq
    cases hk'.symm.trans hk
    cases hp with
    | received hslot => exact hslot
  | waited =>
    unfold CycleCall.afterWait at hq
    split at hq
    · cases hq
    · split at hq <;> cases hq
      cases hk
    · cases hq
  | reset hb | remark hb => cases hb <;> cases hq <;> cases hk
  | submit | ensure | shut | loadSlot | located | update =>
    cases hq
    cases hk
  | _ => cases hq

end

end Work

/-! ## executions -/

namespace Execution

/-- where the build of a cycle stands; before there is one it is about to be spawned -/
inductive Stands (E : Builds) (t : Nat) : Genesis → Prop where
  | build {i : Nat} {g : Genesis} : E.proc? t i = some (.genesis g) → Stands E t g
  | ahead : (∀ i g, E.proc? t i ≠ some (.genesis g)) → Stands E t .spawned

variable {E : Builds} {t u i : Nat} {g g' : Genesis} {fired : Bool} {answer : Answering}
  {q : Progress Cycle Work} {w : Work}

theorem cells_zero : ∃ settings generation, E.cells 0 = .ofGeneration settings generation :=
  E.isInitial

theorem Moves.genesis_succ (hm : E.Moves t i (.genesis g) fired answer q)
    (h : E.Stands (t + 1) g') : q.self = .genesis g' := by
  obtain ⟨g₁, hq⟩ := hm.work.genesis
  have hself : E.proc? (t + 1) i = some (.genesis g₁) := hq ▸ hm.self_succ
  cases h with
  | @build j _ hj =>
    obtain rfl := one_builder hself hj rfl rfl
    cases hself.symm.trans hj
    exact hq
  | ahead hnone => exact absurd hself (hnone _ _)

theorem exists_genesis_succ (h : E.proc? t i = some (.genesis g)) :
    ∃ g', E.proc? (t + 1) i = some (.genesis g') := by
  obtain h' | ⟨fired, answer, q, hm⟩ := Execution.proc_succ h
  · exact ⟨g, h'⟩
  · obtain ⟨g', hq⟩ := hm.work.genesis
    exact ⟨g', hq ▸ hm.self_succ⟩

/-- **Where the build stood before:** it has moved, or it stood there and another moved or none. -/
theorem Stands.back (h : E.Stands (t + 1) g') :
    (∃ i g fired answer q, E.Moves t i (.genesis g) fired answer q ∧ q.self = .genesis g') ∨
    E.Stands t g' ∧ (E.cells (t + 1) = E.cells t ∨
      ∃ i w fired answer q, E.Moves t i w fired answer q ∧ ∀ g, w ≠ .genesis g) := by
  by_cases hbuild : ∃ i g fired answer q, E.Moves t i (.genesis g) fired answer q
  · obtain ⟨i, g, fired, answer, q, hm⟩ := hbuild
    exact .inl ⟨i, g, fired, answer, q, hm, hm.genesis_succ h⟩
  have hnot {i : Nat} {w : Work} {fired : Bool} {answer : Answering} {q : Progress Cycle Work}
      (hm : E.Moves t i w fired answer q) : ∀ g, w ≠ .genesis g := by
    rintro g rfl
    exact hbuild ⟨i, g, fired, answer, q, hm⟩
  have hcells : E.cells (t + 1) = E.cells t ∨
      ∃ i w fired answer q, E.Moves t i w fired answer q ∧ ∀ g, w ≠ .genesis g := by
    obtain he | ⟨i, w, fired, answer, q, hm⟩ := cells_succ (E := E) t
    · exact .inl he
    · exact .inr ⟨i, w, fired, answer, q, hm, hnot hm⟩
  refine .inr ⟨?_, hcells⟩
  cases h with
  | ahead hnone =>
    refine .ahead fun i g hi => ?_
    obtain ⟨g', hg'⟩ := exists_genesis_succ hi
    exact hnone i g' hg'
  | @build i _ hi =>
    obtain h' | ⟨w, fired, answer, q, hm, hq⟩ | ⟨_, k, _, hw⟩ |
      ⟨j, w, fired, answer, q, hm, hx, _⟩ := proc_of_succ hi
    · exact .build h'
    · obtain ⟨g, rfl⟩ := (Work.of_next hm.leads).2.genesis hq
      exact absurd rfl (hnot hm g)
    · cases hw
    · obtain hx' | ⟨n, hx'⟩ := (Work.of_next hm.leads).2.spawned _ hx <;> cases hx'
      -- the one who starts the build is the only builder
      refine .ahead fun l g hl => ?_
      obtain rfl := one_builder hm.proc hl ((Work.of_next hm.leads).2.builds hx) rfl
      cases hm.proc.symm.trans hl
      exact hnot hm g rfl

theorem exists_stands (t : Nat) : ∃ g, E.Stands t g := by
  by_cases h : ∃ i g, E.proc? t i = some (.genesis g)
  · obtain ⟨i, g, hi⟩ := h
    exact ⟨g, .build hi⟩
  · exact ⟨.spawned, .ahead fun i g hi => h ⟨i, g, hi⟩⟩

theorem Stands.unique (h : E.Stands t g) (h' : E.Stands t g') : g = g' := by
  cases h with
  | @build i _ hi =>
    cases h' with
    | @build j _ hj =>
      obtain rfl := one_builder hi hj rfl rfl
      cases hi.symm.trans hj
      rfl
    | ahead hnone => exact absurd hi (hnone _ _)
  | ahead hnone =>
    cases h' with
    | build hj => exact absurd hj (hnone _ _)
    | ahead => rfl

theorem slot_of_storing {k : CycleCall} {cfg : IndexConfiguration}
    (h : E.proc? t i = some (.call k)) (hk : k.wait? = some (.storing cfg)) :
    (E.cells t).outcome.slot = some (.ok cfg) := by
  induction t generalizing k with
  | zero => cases h
  | succ t ih =>
    have hkeep := (cells_keep (E := E) (Nat.le_succ t)).outcome
    obtain h' | ⟨w, fired, answer, q, hm, hq⟩ | ⟨_, k', hfresh, hw⟩ |
      ⟨j, w, fired, answer, q, hm, hx, _⟩ := proc_of_succ h
    · exact hkeep _ (ih h' hk)
    · obtain ⟨k', rfl, _⟩ := (Work.of_next hm.leads).2.operation hq
      exact hkeep _ (hm.work.slot hq hk)
    · cases hw
      cases hfresh <;> cases hk
    · obtain hx' | ⟨n, hx'⟩ := (Work.of_next hm.leads).2.spawned _ hx <;> cases hx'

theorem Moves.rests (hset : E.Avoids .setState) (hm : E.Moves t i w fired answer q)
    (hw : ∀ g, w ≠ .genesis g) (hs : (E.cells t).Shows g) :
    (E.cells t).Rests (E.cells (t + 1)) := by
  rw [hm.cells_succ]
  refine (Work.of_next hm.leads).1.rests (fun r => hw _) (fun o => hw _) fun cfg hc => ?_
  cases w with
  | genesis g => exact absurd rfl (hw g)
  | call k =>
    obtain rfl | hk := Work.caches?_of_call hc
    · exact absurd rfl (hset.operation hm.proc)
    · exact (hs.offers (slot_of_storing hm.proc hk)).state
  | maintenance | ended => cases hc

/-- **The cells hold what the build has published.** -/
theorem Stands.shows (hset : E.Avoids .setState) (h : E.Stands t g) : (E.cells t).Shows g := by
  induction t generalizing g with
  | zero =>
    obtain ⟨settings, generation, hcells⟩ := cells_zero (E := E)
    cases h with
    | build hi => cases hi
    | ahead =>
      rw [hcells]
      exact ⟨rfl, rfl, rfl⟩
  | succ t ih =>
    obtain ⟨i, g, fired, answer, q, hm, hq⟩ | ⟨h', he | ⟨i, w, fired, answer, q, hm, hw⟩⟩ := h.back
    · rw [hm.cells_succ]
      exact hm.work.shows (ih (.build hm.proc)) hq
    · rw [he]
      exact ih h'
    · exact (hm.rests hset hw (ih h')).shows (ih h')

section
variable (hset : E.Avoids .setState)
include hset

theorem caches_of_state {cfg : IndexConfiguration} (h : (E.cells t).state = some cfg) :
    (E.cells t).Caches cfg := by
  obtain ⟨g, hg⟩ := exists_stands (E := E) t
  exact (hg.shows hset).caches h

theorem offers_of_slot {cfg : IndexConfiguration}
    (h : (E.cells t).outcome.slot = some (.ok cfg)) : (E.cells t).Offers cfg := by
  obtain ⟨g, hg⟩ := exists_stands (E := E) t
  exact (hg.shows hset).offers h

theorem state_none_of_slot {e : BuildError}
    (h : (E.cells t).outcome.slot = some (.error e)) : (E.cells t).state = none := by
  obtain ⟨g, hg⟩ := exists_stands (E := E) t
  exact (hg.shows hset).state_none h

/-! ## what is published stays -/

theorem registry_succ (t : Nat) :
    (E.cells (t + 1)).registry = (E.cells t).registry ∨
      (E.cells t).registry = none ∧ ∃ i r fired answer q,
        E.Moves t i (.genesis (.publishing r)) fired answer q ∧
        (E.cells (t + 1)).registry = some r := by
  obtain h | ⟨i, w, fired, answer, q, hm⟩ := cells_succ (E := E) t
  · exact .inl (by rw [h])
  · rw [hm.cells_succ]
    obtain h | ⟨r, rfl, h⟩ := (Work.of_next hm.leads).1.registry
    · exact .inl h
    · exact .inr ⟨((Stands.build hm.proc).shows hset).1, i, r, fired, answer, q, hm, h⟩

theorem state_succ (t : Nat) :
    (E.cells (t + 1)).state = (E.cells t).state ∨
      (E.cells t).state = none ∧ ∃ i cfg fired answer q,
        E.Moves t i (.genesis (.caching cfg)) fired answer q ∧
        (E.cells (t + 1)).state = some cfg := by
  obtain h | ⟨i, w, fired, answer, q, hm⟩ := cells_succ (E := E) t
  · exact .inl (by rw [h])
  by_cases hw : ∃ g, w = .genesis g
  · obtain ⟨g, rfl⟩ := hw
    rw [hm.cells_succ]
    obtain h | ⟨cfg, hc, h⟩ := (Work.of_next hm.leads).1.state
    · exact .inl h
    · cases g with
      | caching cfg' =>
        cases hc
        exact .inr ⟨((Stands.build hm.proc).shows hset).2.state, i, cfg, fired, answer, q, hm, h⟩
      | _ => cases hc
  · obtain ⟨g, hg⟩ := exists_stands (E := E) t
    exact .inl (hm.rests hset (fun g hg => hw ⟨g, hg⟩) (hg.shows hset)).state

theorem registry_stays {r : Registry} (h : (E.cells t).registry = some r) (htu : t ≤ u) :
    (E.cells u).registry = some r := by
  induction u, htu using Nat.le_induction with
  | base => exact h
  | succ u _ ih =>
    obtain hsame | ⟨hnone, _⟩ := registry_succ hset u
    · exact hsame.trans ih
    · cases hnone.symm.trans ih

theorem state_stays {cfg : IndexConfiguration} (h : (E.cells t).state = some cfg) (htu : t ≤ u) :
    (E.cells u).state = some cfg := by
  induction u, htu using Nat.le_induction with
  | base => exact h
  | succ u _ ih =>
    obtain hsame | ⟨hnone, _⟩ := state_succ hset u
    · exact hsame.trans ih
    · cases hnone.symm.trans ih

/-! ## complete configurations -/

theorem assembled_of_state {cfg : IndexConfiguration} (h : (E.cells t).state = some cfg) :
    ∃ i, E.Assembled t i cfg := by
  induction t with
  | zero =>
    obtain ⟨settings, generation, hcells⟩ := cells_zero (E := E)
    rw [hcells] at h
    cases h
  | succ t ih =>
    obtain hsame | ⟨_, i, cfg', fired, answer, q, hm, hstate⟩ := state_succ hset t
    · obtain ⟨i, hi⟩ := ih (hsame ▸ h)
      exact ⟨i, hi.mono (Nat.le_succ t)⟩
    · cases hstate.symm.trans h
      have hstory : E.Assembled t i cfg := story hm.proc
      exact ⟨i, hstory.mono (Nat.le_succ t)⟩

end

end Execution

end IndexCoordinator
