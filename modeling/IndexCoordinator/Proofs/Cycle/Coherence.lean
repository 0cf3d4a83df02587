import IndexCoordinator.Proofs.Cycle.Agreement
import IndexCoordinator.Proofs.Cycle.Openings

/-!
# The cells of a cycle agree

Phase, registry, configuration, evaluator and promise are published without a common lock.  As long
as no caller sets the configuration or the phase, they never contradict each other.

* `Cycle.Evaluates`, `Cycle.Rebuilds`   evaluators over the published registry;
* `Cycle.Reaches`                 how far the phase has come where the build stands;
* `Execution.Visible`, `Execution.Complete`   configurations that somebody sees, and what they hold;
* `Execution.cells_agree`         all of it together;
* `Execution.Stores`              a configuration put into the cell, which happens more than once.
-/

namespace IndexCoordinator

/-! ## the cells -/

namespace Cycle

/-- an evaluator over the published registry -/
def Evaluates (c : Cycle) (e : Evaluator) : Prop :=
  ∃ r types, c.registry = some r ∧ e = Evaluator.ofRegistry r types c.settings.fileSizeLimit

def Rebuilds (c : Cycle) : Rebuild → Prop
  | .reading => True
  | .asking r => c.registry = some r
  | .storing e => c.Evaluates e

/-- how far a cycle has come while its build stands at a position -/
def Reaches (c : Cycle) : Genesis → Prop
  | .spawned => c.phase < .extensionsLoaded
  | .listing => c.phase < .extensionsLoaded
  | .publishing _ => c.phase < .extensionsLoaded
  | .loaded _ => c.phase < .extensionsLoaded
  | .resolving (.ok _) => c.phase = .initialized
  | .confirming _ => c.phase = .initialized
  | .ended =>
    (c.phase = .initialized ∧ ∃ cfg, c.outcome.slot = some (.ok cfg)) ∨
      c.phase < .initialized ∧ ∃ e, c.outcome.slot = some (.error e)
  | _ => c.phase < .initialized

section
variable {c c' : Cycle} {g : Genesis}

theorem Reaches.congr (h : c.Reaches g) (hphase : c'.phase = c.phase)
    (hslot : c'.outcome.slot = c.outcome.slot) : c'.Reaches g := by
  unfold Reaches at h ⊢
  rw [hphase, hslot]
  exact h

theorem Shows.reached (hs : c.Shows g) (hr : c.Reaches g) :
    (∀ cfg, c.outcome.slot = some (.ok cfg) → c.phase = .initialized) ∧
      ∀ e, c.outcome.slot = some (.error e) → c.phase < .initialized := by
  have hopen (hnone : c.outcome.slot = none) :
      (∀ cfg, c.outcome.slot = some (.ok cfg) → c.phase = .initialized) ∧
        ∀ e, c.outcome.slot = some (.error e) → c.phase < .initialized := by
    rw [hnone]
    exact ⟨nofun, nofun⟩
  cases g with
  | spawned | listing | publishing | loaded | starting | assembling | opening | caching =>
    exact hopen hs.2.outcome
  | marking | marked | unwound => exact hopen hs.2
  | resolving o =>
    cases o with
    | ok => exact hopen hs.2
    | error => exact hopen hs.outcome
  | confirming =>
    obtain ⟨cfg, _, hslot⟩ := hs
    exact ⟨fun _ _ => hr, fun e he => by cases hslot.symm.trans he⟩
  | ended =>
    obtain ⟨hphase, cfg, hslot⟩ | ⟨hphase, e, hslot⟩ := hr
    · exact ⟨fun _ _ => hphase, fun e he => by cases hslot.symm.trans he⟩
    · exact ⟨fun cfg hcfg => (by cases hslot.symm.trans hcfg), fun _ _ => hphase⟩

theorem Shows.offers_of_phase (hs : c.Shows g) (hr : c.Reaches g) (h : c.phase = .initialized) :
    ∃ cfg, c.Offers cfg := by
  have hlow {a : Phase} (hlt : c.phase < a) (ha : a ≤ .initialized) : ∃ cfg, c.Offers cfg := by
    rw [h] at hlt
    exact absurd ha (Phase.not_le_of_lt hlt)
  cases g with
  | spawned | listing | publishing | loaded => exact hlow hr (by decide)
  | starting | assembling | opening | caching | marking | marked | unwound =>
    exact hlow hr (by decide)
  | resolving o =>
    cases o with
    | ok => exact ⟨_, hs.1⟩
    | error => exact hlow hr (by decide)
  | confirming =>
    obtain ⟨cfg, ho, _⟩ := hs
    exact ⟨cfg, ho⟩
  | ended =>
    obtain ⟨cfg, ho, _⟩ | ⟨_, e, hslot⟩ := hs
    · exact ⟨cfg, ho⟩
    · obtain ⟨_, cfg, hslot'⟩ | ⟨hlt, _⟩ := hr
      · cases hslot.symm.trans hslot'
      · exact hlow hlt (by decide)

end

end Cycle

/-! ## one move -/

namespace Work

variable {w : Work} {c c' : Cycle}

theorem Effect.phase (h : w.Effect c c') :
    c'.phase = c.phase ∨ ∃ target, w.advances? = some target ∧ c'.phase = c.phase.later target := by
  cases h with
  | advance hw => exact .inr ⟨_, hw, rfl⟩
  | shut _ hs => cases hs <;> exact .inl rfl
  | _ => exact .inl rfl

section
variable {fired : Bool} {answer : Answering} {q : Progress Cycle Work} {g g' : Genesis}

theorem reaches_afterListing (h : c.phase < .extensionsLoaded) (settings : IndexingSettings)
    (a : Outcome (Except ExtensionError (List IndexDescriptor))) :
    c.Reaches (Genesis.afterListing settings a) := by
  have hlow : c.phase < .initialized := Phase.lt_of_lt_of_le h (by decide)
  obtain (e | descriptors) | p := a
  · exact hlow
  · unfold Genesis.afterListing
    cases hr : Genesis.register settings descriptors with
    | ok r =>
      simp only [hr]
      exact h
    | error e =>
      simp only [hr]
      exact hlow
  · exact hlow

theorem Moves.reaches (h : Moves fired answer c (.genesis g) q) (hs : c.Shows g)
    (hr : c.Reaches g) (hq : q.self = .genesis g') : q.shared.Reaches g' := by
  cases h with
  | list | publish | enterIndex | assembled | cache =>
    cases hq
    exact hr
  | listed =>
    cases hq
    exact reaches_afterListing hr _ _
  | load =>
    cases hq
    exact Phase.later_lt (Phase.lt_of_lt_of_le hr (by decide)) (by decide)
  | begin =>
    cases hq
    exact Phase.later_lt hr (by decide)
  | @opened a d rest =>
    cases hq
    show c.Reaches (Genesis.afterOpening a d rest _)
    unfold Genesis.afterOpening
    split <;> exact hr
  | mark hb =>
    cases hb with
    | missing hnone =>
      have hsome := hs.1.registry
      rw [hnone] at hsome
      cases hsome
    | ask | told | panicked | store =>
      cases hq
      exact hr
  | marked =>
    cases hq
    refine Phase.eq_initialized ?_
    show Phase.initialized.rank ≤ (c.phase.later .initialized).rank
    rw [Phase.rank_later]
    exact Nat.le_max_right _ _
  | @resolve o =>
    cases hq
    cases o with
    | ok cfg => exact hr
    | error e =>
      have hslot : (c.outcome.resolve (.error e)).slot = some (.error e) := by
        rw [Promise.slot_resolve, hs.outcome]
        rfl
      exact .inr ⟨hr, e, hslot⟩
  | @confirm e _ _ hn =>
    cases hq
    have he := (Effect.of_ensure (w := .genesis (.confirming e)) c e).1
    rw [hn] at he
    obtain hphase | ⟨_, hw, _⟩ := he.phase
    · exact hphase.trans hr
    · cases hw
  | @confirmed e _ _ hn =>
    cases hq
    have he := (Effect.of_ensure (w := .genesis (.confirming e)) c e).1
    rw [hn] at he
    obtain ⟨cfg, _, hslot⟩ := hs
    have hrest : Cycle.Rests c _ := he.rests nofun nofun nofun
    obtain hphase | ⟨_, hw, _⟩ := he.phase
    · exact .inl ⟨hphase.trans hr, cfg, hrest.outcome.trans hslot⟩
    · cases hw

theorem Moves.rebuild (h : Moves fired answer c w q) {b' : Rebuild}
    (hb : q.self.rebuild? = some b') :
    b' = .reading ∨
      ∃ b p, w.rebuild? = some b ∧ Rebuild.Moves answer c b p ∧ p.self = .go b' := by
  cases h with
  | listed =>
    unfold Genesis.afterListing at hb
    split at hb
    · split at hb <;> cases hb
    · cases hb
    · cases hb
  | opened =>
    unfold Genesis.afterOpening at hb
    split at hb <;> cases hb
  | cache =>
    cases hb
    exact .inl rfl
  | @mark cfg b p hm | @reset b p hm | @remark b p hm =>
    right
    refine ⟨b, p, rfl, hm, ?_⟩
    cases hm <;> cases hb <;> rfl
  | @resolve o => cases o <;> cases hb
  | @wait k k' _ _ _ _ _ hk =>
    cases k' <;> cases hb <;> cases hk
  | waited =>
    unfold CycleCall.afterWait at hb
    split at hb
    · cases hb
    · split at hb <;> cases hb
    · cases hb
  | _ => cases hb

end

end Work

/-! ## executions -/

namespace Execution

variable {E : Builds} {t u i : Nat} {g : Genesis}

theorem phase_mono (htu : t ≤ u) : (E.cells t).phase ≤ (E.cells u).phase := by
  induction u, htu using Nat.le_induction with
  | base => exact Nat.le_refl _
  | succ u _ ih =>
    refine Phase.le_trans ih ?_
    obtain h | ⟨i, w, fired, answer, q, hm⟩ := cells_succ (E := E) u
    · rw [h]
      exact Nat.le_refl _
    · rw [hm.cells_succ]
      obtain h | ⟨target, _, h⟩ := (Work.of_next hm.leads).1.phase
      · rw [h]
        exact Nat.le_refl _
      · rw [h]
        exact Phase.le_later _ _

/-! ### evaluators -/

theorem Evaluates.mono {e : Evaluator} (h : (E.cells t).Evaluates e) (htu : t ≤ u) :
    (E.cells u).Evaluates e := by
  obtain ⟨r, types, hr, he⟩ := h
  refine ⟨r, types, registry_kept hr htu, ?_⟩
  rw [settings_eq, ← settings_eq t]
  exact he

theorem rebuilds {w : Work} {b : Rebuild} (h : E.proc? t i = some w) (hb : w.rebuild? = some b) :
    (E.cells t).Rebuilds b := by
  induction t generalizing w b with
  | zero => cases h
  | succ t ih =>
    have hkeep {b : Rebuild} (hb : (E.cells t).Rebuilds b) : (E.cells (t + 1)).Rebuilds b := by
      cases b with
      | reading => trivial
      | asking r => exact registry_kept hb (Nat.le_succ t)
      | storing e => exact Evaluates.mono hb (Nat.le_succ t)
    obtain h' | ⟨w₀, fired, answer, q, hm, rfl⟩ | ⟨_, k, hk, rfl⟩ |
      ⟨j, w₀, fired, answer, q, hm, hx, _⟩ := proc_of_succ h
    · exact hkeep (ih h' hb)
    · obtain rfl | ⟨b₀, p, hb₀, hmove, hp⟩ := hm.work.rebuild hb
      · trivial
      · refine hkeep ?_
        have h₀ := ih hm.proc hb₀
        cases hmove with
        | ask hr =>
          cases hp
          exact hr
        | @told r types =>
          cases hp
          exact ⟨r, types, h₀, rfl⟩
        | _ => cases hp
    · cases hk <;> cases hb <;> trivial
    · obtain hx' | ⟨n, hx'⟩ := (Work.of_next hm.leads).2.spawned _ hx <;> subst hx' <;> cases hb

/-- **An evaluator is over the published registry,** whatever callers do. -/
theorem evaluates_of_evaluator {e : Evaluator} (h : (E.cells t).evaluator = some e) :
    (E.cells t).Evaluates e := by
  induction t with
  | zero =>
    obtain ⟨settings, generation, hcells⟩ := cells_zero (E := E)
    rw [hcells] at h
    cases h
  | succ t ih =>
    refine Evaluates.mono ?_ (Nat.le_succ t)
    obtain hsame | ⟨i, w, fired, answer, q, hm⟩ := cells_succ (E := E) t
    · exact ih (hsame ▸ h)
    · rw [hm.cells_succ] at h
      obtain hsame | ⟨e', hw, he'⟩ := (Work.of_next hm.leads).1.evaluator
      · exact ih (hsame ▸ h)
      · cases he'.symm.trans h
        unfold Work.installs? at hw
        split at hw
        · next hb =>
          cases hw
          exact rebuilds hm.proc hb
        · cases hw

section
variable (hset : E.Avoids .setState)
include hset

/-! ### phases -/

section
variable (hmark : E.Avoids .markInitialized) (hload : E.Avoids .loadExtensions)
include hmark hload

omit hset in
/-- who is not the build only submits it -/
theorem Moves.phase {w : Work} {fired : Bool} {answer : Answering} {q : Progress Cycle Work}
    (hm : E.Moves t i w fired answer q) (hw : ∀ g, w ≠ .genesis g) :
    (E.cells (t + 1)).phase = (E.cells t).phase ∨
      E.Stands t .spawned ∧
        (E.cells (t + 1)).phase = (E.cells t).phase.later .extensionsLoading := by
  rw [hm.cells_succ]
  obtain h | ⟨target, htarget, h⟩ := (Work.of_next hm.leads).1.phase
  · exact .inl h
  · unfold Work.advances? at htarget
    split at htarget <;> cases htarget
    · exact absurd rfl (hw _)
    · exact absurd rfl (hw _)
    · exact absurd rfl (hw _)
    · refine .inr ⟨.ahead fun j g hj => ?_, h⟩
      obtain rfl := one_builder hm.proc hj rfl rfl
      cases hm.proc.symm.trans hj
    · exact absurd rfl (hmark.operation hm.proc)
    · exact absurd rfl (hload.operation hm.proc)

theorem Stands.reaches (h : E.Stands t g) : (E.cells t).Reaches g := by
  induction t generalizing g with
  | zero =>
    obtain ⟨settings, generation, hcells⟩ := cells_zero (E := E)
    cases h with
    | build hi => cases hi
    | ahead =>
      rw [hcells]
      show Phase.created < .extensionsLoaded
      decide
  | succ t ih =>
    obtain ⟨i, g, fired, answer, q, hm, hq⟩ | ⟨h', he | ⟨i, w, fired, answer, q, hm, hw⟩⟩ := h.back
    · have hg : E.Stands t g := .build hm.proc
      rw [hm.cells_succ]
      exact hm.work.reaches (hg.shows hset) (ih hg) hq
    · rw [he]
      exact ih h'
    · have hrest := hm.rests hset hw (h'.shows hset)
      obtain hphase | ⟨hspawned, hphase⟩ := hm.phase hmark hload hw
      · exact (ih h').congr hphase hrest.outcome
      · obtain rfl := h'.unique hspawned
        show (E.cells (t + 1)).phase < .extensionsLoaded
        rw [hphase]
        exact Phase.later_lt (ih h') (by decide)

theorem registry_of_phase (h : .extensionsLoaded ≤ (E.cells t).phase) :
    ∃ r, (E.cells t).registry = some r := by
  induction t with
  | zero =>
    obtain ⟨settings, generation, hcells⟩ := cells_zero (E := E)
    rw [hcells] at h
    have hnot : ¬ Phase.extensionsLoaded ≤ .created := by decide
    exact absurd h hnot
  | succ t ih =>
    have hkeep : (∃ r, (E.cells t).registry = some r) → ∃ r, (E.cells (t + 1)).registry = some r :=
      fun ⟨r, hr⟩ => ⟨r, registry_stays hset hr (Nat.le_succ t)⟩
    refine hkeep ?_
    obtain hsame | ⟨i, w, fired, answer, q, hm⟩ := cells_succ (E := E) t
    · exact ih (hsame ▸ h)
    by_cases hw : ∃ g, w = .genesis g
    · obtain ⟨g, rfl⟩ := hw
      have hshows := (Stands.build hm.proc).shows hset
      rw [hm.cells_succ] at h
      obtain hphase | ⟨target, htarget, _⟩ := (Work.of_next hm.leads).1.phase
      · exact ih (hphase ▸ h)
      · cases g <;> cases htarget
        · exact ⟨_, hshows.1⟩
        · exact ⟨_, hshows.1⟩
        · exact ⟨_, hshows.1.registry⟩
    · obtain hphase | ⟨_, hphase⟩ := hm.phase hmark hload fun g hg => hw ⟨g, hg⟩
      · exact ih (hphase ▸ h)
      · rw [hphase] at h
        refine ih (Nat.le_of_not_lt fun hlt => Phase.not_le_of_lt ?_ h)
        exact Phase.later_lt hlt (by decide)

end

end

/-! ### configurations -/

section
variable (E : Builds) (t : Nat)

/-- somebody sees a configuration: in the cell, in the promise, or as the reply to a wait -/
def Visible (cfg : IndexConfiguration) : Prop :=
  (E.cells t).state = some cfg ∨ (E.cells t).outcome.slot = some (.ok cfg) ∨
    ∃ i, E.Replied t i (.configuration cfg)

/-- a configuration of the published registry: it has the versions of all its descriptors, and
storage has opened all its indexes -/
structure Complete (cfg : IndexConfiguration) : Prop where
  registry : (E.cells t).registry = some cfg.registry
  nodup : cfg.registry.ids.Nodup
  ids : cfg.versions.map (·.1) = cfg.registry.ids
  version : ∀ id, cfg.version? id = (cfg.registry.descriptor? id).map (·.version)
  opened : ∀ d ∈ cfg.registry.descriptors, ∃ i,
    E.Answered t i (.openIndex d) (.returned (.ok ()))

end

variable {cfg : IndexConfiguration}

theorem Visible.state (hset : E.Avoids .setState) (h : E.Visible t cfg) :
    (E.cells t).state = some cfg := by
  obtain h | h | ⟨i, h⟩ := h
  · exact h
  · exact (offers_of_slot hset h).state
  · obtain ⟨cfg', hstate, heq⟩ := h.state hset trivial
    rw [heq cfg rfl]
    exact hstate

theorem complete_of_state (hset : E.Avoids .setState) (h : (E.cells t).state = some cfg) :
    E.Complete t cfg := by
  obtain ⟨i, hasm⟩ := assembled_of_state hset h
  obtain ⟨descriptors, _, hreg⟩ := hasm.registered
  have hindexed := Genesis.indexed_register hreg
  refine ⟨(caches_of_state hset h).registry, hindexed.nodup, ?_, fun id => ?_,
    fun d hd => ⟨i, hasm.opened d hd⟩⟩
  · rw [hasm.versions, List.map_map]
    rfl
  · rw [IndexConfiguration.version?, hasm.versions]
    exact hindexed.lookup_versions id

/-- **The cells of a cycle agree.**  However the build of a cycle and any callers are interleaved,
as long as no caller sets the configuration or the phase: the phase never decreases; registry and
configuration, once published, stay, and who publishes a configuration later publishes the same one;
with extensions loaded there is a registry; evaluators are over this registry, and so are all
configurations that somebody sees, which are complete; an initialized cycle has registry,
configuration and evaluator; a promised configuration is in its cell, and the cycle is initialized;
and after a promised failure there is never a configuration, and the cycle never initialized. -/
theorem cells_agree (hset : E.Avoids .setState) (hmark : E.Avoids .markInitialized)
    (hload : E.Avoids .loadExtensions) :
    (∀ t u, t ≤ u → (E.cells t).phase ≤ (E.cells u).phase) ∧
    (∀ t u r, t ≤ u → (E.cells t).registry = some r → (E.cells u).registry = some r) ∧
    (∀ t i r, E.proc? t i = some (.genesis (.publishing r)) → (E.cells t).registry = none) ∧
    (∀ t u cfg, t ≤ u → (E.cells t).state = some cfg → (E.cells u).state = some cfg) ∧
    (∀ t i w cfg, E.proc? t i = some w → w.caches? = some cfg →
      (E.cells t).state = none ∨ (E.cells t).state = some cfg) ∧
    (∀ t, .extensionsLoaded ≤ (E.cells t).phase → ∃ r, (E.cells t).registry = some r) ∧
    (∀ t e, (E.cells t).evaluator = some e → (E.cells t).Evaluates e) ∧
    (∀ t cfg, E.Visible t cfg → E.Complete t cfg) ∧
    (∀ t, (E.cells t).phase = .initialized → ∃ cfg, (E.cells t).Offers cfg) ∧
    (∀ t cfg, (E.cells t).outcome.slot = some (.ok cfg) →
      (E.cells t).state = some cfg ∧ (E.cells t).phase = .initialized) ∧
    ∀ t u e, t ≤ u → (E.cells t).outcome.slot = some (.error e) →
      (E.cells u).state = none ∧ (E.cells u).phase < .initialized := by
  have hreached (t : Nat) : ∃ g, (E.cells t).Shows g ∧ (E.cells t).Reaches g := by
    obtain ⟨g, hg⟩ := exists_stands (E := E) t
    exact ⟨g, hg.shows hset, hg.reaches hset hmark hload⟩
  refine ⟨fun t u htu => phase_mono htu, fun t u r htu h => registry_stays hset h htu,
    fun t i r h => ((Stands.build h).shows hset).1, fun t u cfg htu h => state_stays hset h htu,
    fun t i w cfg h hw => ?_, fun t h => registry_of_phase hset hmark hload h,
    fun t e h => evaluates_of_evaluator h,
    fun t cfg h => complete_of_state hset (h.state hset), fun t h => ?_, fun t cfg h => ?_,
    fun t u e htu h => ?_⟩
  · cases w with
    | genesis g =>
      cases g with
      | caching cfg' => exact .inl ((Stands.build h).shows hset).2.state
      | _ => cases hw
    | call k =>
      obtain rfl | hk := Work.caches?_of_call hw
      · exact absurd rfl (hset.operation h)
      · exact .inr (offers_of_slot hset (slot_of_storing h hk)).state
    | maintenance | ended => cases hw
  · obtain ⟨g, hs, hr⟩ := hreached t
    exact hs.offers_of_phase hr h
  · obtain ⟨g, hs, hr⟩ := hreached t
    exact ⟨(hs.offers h).state, (hs.reached hr).1 cfg h⟩
  · obtain ⟨g, hs, hr⟩ := hreached u
    have hu := (cells_keep htu).outcome _ h
    exact ⟨hs.state_none hu, (hs.reached hr).2 e hu⟩

def words : IndexDescriptor := { id := ⟨"words", 1⟩, version := 3 }

/-- the build of a cycle with one index; a caller resets the hints and another shuts the cycle down
before the build has made its evaluator -/
def disturbed : Builds :=
  .ofScript (.granting [words])
    [(.submitting .claiming, []), (.awaitingConfiguration .reading, []),
      (.resettingHints .reading, []),
      (.shuttingDown .claiming, ([1, 0, 0, 0] ++ List.replicate 9 4 ++ [2, 2, 2, 3, 3] ++
        List.replicate 5 4 ++ [1, 1]).map (·, false))]
    ⟨.submit, .awaitConfiguration, .resetHints, .shutDown⟩

theorem avoids_disturbed : disturbed.Avoids .setState ∧ disturbed.Avoids .markInitialized ∧
    disturbed.Avoids .loadExtensions :=
  ⟨ofScript_avoids (by decide), ofScript_avoids (by decide), ofScript_avoids (by decide)⟩

/-- the disturbed cycle is initialized, and its configuration has the version of the one index -/
theorem cells_agree_disturbed :
    disturbed.Avoids .setState ∧ disturbed.Avoids .markInitialized ∧
    disturbed.Avoids .loadExtensions ∧ (disturbed.cells 29).phase = .initialized ∧
    ∃ cfg, disturbed.Visible 29 cfg ∧ disturbed.Complete 29 cfg ∧
      cfg.version? words.id = some 3 := by
  obtain ⟨hset, hmark, hload⟩ := avoids_disturbed
  obtain ⟨_, _, _, _, _, _, _, hcomplete, hoffers, _⟩ := cells_agree hset hmark hload
  have hphase : (disturbed.cells 29).phase = .initialized := by decide +kernel
  have hversion : ((disturbed.cells 29).state.bind (·.version? words.id)) = some 3 := by
    decide +kernel
  obtain ⟨cfg, hcfg⟩ := hoffers 29 hphase
  have hvisible : disturbed.Visible 29 cfg := .inl hcfg.state
  rw [hcfg.state] at hversion
  exact ⟨hset, hmark, hload, hphase, cfg, hvisible, hcomplete 29 cfg hvisible, hversion⟩

/-- a process puts a configuration into the cell -/
def Stores (E : Builds) (t i : Nat) (cfg : IndexConfiguration) : Prop :=
  ∃ w fired answer q, E.Moves t i w fired answer q ∧ w.caches? = some cfg

/-- the build of the disturbed cycle stores its configuration, and so does the caller that waited
for it -/
theorem stores_disturbed :
    (∃ cfg, disturbed.Stores 16 4 cfg) ∧ ∃ cfg, disturbed.Stores 28 1 cfg :=
  ⟨⟨_, _, _, _, _, .of_cue rfl rfl rfl, rfl⟩, _, _, _, _, _, .of_cue rfl rfl rfl, rfl⟩

/-- a configuration may be put into the cell more than once, also with no caller that sets it -/
theorem not_stored_once :
    ¬ ∀ (E : Builds) t u i j cfg cfg', E.Avoids .setState → E.Avoids .markInitialized →
      E.Avoids .loadExtensions → E.Stores t i cfg → E.Stores u j cfg' → t = u := by
  intro h
  obtain ⟨hset, hmark, hload⟩ := avoids_disturbed
  obtain ⟨⟨_, hbuild⟩, _, hcaller⟩ := stores_disturbed
  exact absurd (h disturbed 16 28 4 1 _ _ hset hmark hload hbuild hcaller) (by decide)

end Execution

end IndexCoordinator
