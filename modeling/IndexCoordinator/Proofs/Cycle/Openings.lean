import IndexCoordinator.Proofs.Cycle.Readiness

/-!
# The openings of a published registry

The build publishes the registry before it opens the first index, and the registry stays when the
build fails.  So of an index that is in the published registry one of three things holds.

* `Execution.registry_kept`     a published registry stays, whatever callers do;
* `Execution.registered_of_registry`   it is the registry of the listing;
* `Execution.OpeningOf`         how far the opening of an index has come: storage has opened it, the
                                build has not come to the end of its opening, or it has failed;
* `Execution.opening_of_registry`   what holds of every index of the published registry.
-/

namespace IndexCoordinator

namespace Genesis

/-- the registry is not published yet -/
def isEarly : Genesis → Bool
  | .spawned => true
  | .listing => true
  | .publishing _ => true
  | _ => false

/-- the opening of an index is still to come or has not ended -/
def Awaits (d : IndexDescriptor) : Genesis → Prop
  | .loaded r => d ∈ r.descriptors
  | .starting r => d ∈ r.descriptors
  | .assembling a => d ∈ a.remaining
  | .opening _ d' rest => d ∈ d' :: rest
  | _ => False

end Genesis

namespace Work

variable {fired : Bool} {answer : Answering} {c : Cycle} {q : Progress Cycle Work} {g : Genesis}

/-- a build that has published no registry after a move had published none before -/
theorem Moves.early (h : Moves fired answer c (.genesis g) q) {g' : Genesis}
    (hq : q.self = .genesis g') (hg : g'.isEarly = true) :
    g.isEarly = true ∧ q.shared.registry = c.registry := by
  cases h with
  | list | listed => exact ⟨rfl, rfl⟩
  | opened =>
    cases hq
    unfold Genesis.afterOpening at hg
    split at hg <;> cases hg
  | mark hb =>
    cases hq
    cases hb <;> cases hg
  | resolve =>
    cases hq
    unfold Genesis.afterResolving at hg
    split at hg <;> cases hg
  | _ =>
    cases hq
    cases hg

theorem Moves.marking_of_unwound (h : Moves fired answer c (.genesis g) q) {p : PanicPayload}
    (hq : q.self = .genesis (.unwound p)) : ∃ cfg b, g = .marking cfg b := by
  cases h with
  | mark => exact ⟨_, _, rfl⟩
  | listed =>
    simp only [Work.genesis.injEq] at hq
    unfold Genesis.afterListing at hq
    split at hq
    · split at hq <;> cases hq
    · cases hq
    · cases hq
  | opened =>
    simp only [Work.genesis.injEq] at hq
    unfold Genesis.afterOpening at hq
    split at hq <;> cases hq
  | resolve =>
    simp only [Work.genesis.injEq] at hq
    unfold Genesis.afterResolving at hq
    split at hq <;> cases hq
  | _ => cases hq

end Work

namespace Execution

variable {E : Builds} {t u i : Nat} {r : Registry} {g : Genesis}

theorem Stands.unpublished (h : E.Stands t g) (hg : g.isEarly = true) :
    (E.cells t).registry = none := by
  induction t generalizing g with
  | zero =>
    obtain ⟨settings, generation, hcells⟩ := cells_zero (E := E)
    rw [hcells]
    rfl
  | succ t ih =>
    obtain ⟨i, g₀, fired, answer, q, hm, hq⟩ |
      ⟨h', he | ⟨i, w, fired, answer, q, hm, hw⟩⟩ := h.back
    · obtain ⟨hg₀, he⟩ := hm.work.early hq hg
      rw [hm.cells_succ, he]
      exact ih (.build hm.proc) hg₀
    · rw [he]
      exact ih h' hg
    · rw [hm.cells_succ]
      obtain he | ⟨r, rfl, _⟩ := (Work.of_next hm.leads).1.registry
      · rw [he]
        exact ih h' hg
      · exact absurd rfl (hw _)

theorem registry_back (h : (E.cells (t + 1)).registry = some r) :
    (E.cells t).registry = some r ∨
      (E.cells t).registry = none ∧ ∃ i, E.proc? t i = some (.genesis (.publishing r)) := by
  obtain he | ⟨i, w, fired, answer, q, hm⟩ := cells_succ (E := E) t
  · exact .inl (he ▸ h)
  · rw [hm.cells_succ] at h
    obtain he | ⟨r', rfl, he⟩ := (Work.of_next hm.leads).1.registry
    · exact .inl (he ▸ h)
    · obtain rfl : r' = r := Option.some.inj (he.symm.trans h)
      exact .inr ⟨(Stands.build hm.proc).unpublished rfl, i, hm.proc⟩

theorem registry_kept (h : (E.cells t).registry = some r) (htu : t ≤ u) :
    (E.cells u).registry = some r := by
  induction u, htu using Nat.le_induction with
  | base => exact h
  | succ u _ ih =>
    obtain he | ⟨i, w, fired, answer, q, hm⟩ := cells_succ (E := E) u
    · exact he ▸ ih
    · rw [hm.cells_succ]
      obtain he | ⟨r', rfl, _⟩ := (Work.of_next hm.leads).1.registry
      · exact he.trans ih
      · cases ((Stands.build hm.proc).unpublished rfl).symm.trans ih

/-- **The published registry is that of the listing.** -/
theorem registered_of_registry (h : (E.cells t).registry = some r) : ∃ i, E.Registered t i r := by
  induction t with
  | zero =>
    obtain ⟨settings, generation, hcells⟩ := cells_zero (E := E)
    rw [hcells] at h
    cases h
  | succ t ih =>
    obtain h' | ⟨_, i, hi⟩ := registry_back h
    · obtain ⟨i, hr⟩ := ih h'
      exact ⟨i, hr.mono (Nat.le_succ t)⟩
    · have hr : E.Registered t i r := story hi
      exact ⟨i, hr.mono (Nat.le_succ t)⟩

/-- a build that panicked on the file types had opened every index of its registry -/
theorem assembled_of_unwound {p : PanicPayload} (h : E.proc? t i = some (.genesis (.unwound p))) :
    ∃ cfg, E.Assembled t i cfg ∧ (E.cells t).registry = some cfg.registry := by
  induction t with
  | zero => cases h
  | succ t ih =>
    have hle := Nat.le_succ t
    obtain h' | ⟨w, fired, answer, q, hm, hq⟩ | ⟨_, k, _, hw⟩ |
      ⟨j, w, fired, answer, q, hm, hx, _⟩ := proc_of_succ h
    · obtain ⟨cfg, hcfg, hr⟩ := ih h'
      exact ⟨cfg, hcfg.mono hle, registry_kept hr hle⟩
    · obtain ⟨g, rfl⟩ := (Work.of_next hm.leads).2.genesis hq
      obtain ⟨cfg, b, rfl⟩ := hm.work.marking_of_unwound hq
      have hcfg : E.Assembled t i cfg := story hm.proc
      exact ⟨cfg, hcfg.mono hle, registry_kept (Stands.build hm.proc).carries.1 hle⟩
    · cases hw
    · obtain hx | ⟨k, hx⟩ := (Work.of_next hm.leads).2.spawned _ hx <;> cases hx

/-- how far the opening of an index has come -/
inductive OpeningOf (E : Builds) (t : Nat) (d : IndexDescriptor) : Prop where
  | opened {i : Nat} : E.Answered t i (.openIndex d) (.returned (.ok ())) → OpeningOf E t d
  | awaited {g : Genesis} : E.Stands t g → g.Awaits d → OpeningOf E t d
  | failing {e : BuildError} : E.Stands t (.resolving (.error e)) → OpeningOf E t d
  | failed {e : BuildError} : (E.cells t).outcome.slot = some (.error e) → OpeningOf E t d

theorem Assembling.openingOf {a : Assembly} (h : E.Assembling t i a) {d : IndexDescriptor}
    (hd : d ∈ a.registry.descriptors) (hawaits : d ∈ a.remaining → E.OpeningOf t d) :
    E.OpeningOf t d := by
  obtain ⟨_, opened, hsplit, _, hopen⟩ := h
  rw [hsplit] at hd
  obtain hd | hd := List.mem_append.mp hd
  · exact .opened (hopen d hd)
  · exact hawaits hd

/-- **What holds of an index of the published registry.** -/
theorem opening_of_registry (h : (E.cells t).registry = some r) {d : IndexDescriptor}
    (hd : d ∈ r.descriptors) : E.OpeningOf t d := by
  obtain ⟨g, hg⟩ := exists_stands (E := E) t
  have hcarries := hg.carries
  have hearly (he : g.isEarly = true) : E.OpeningOf t d := by
    cases (hg.unpublished he).symm.trans h
  have hsame {r' : Registry} (hr : (E.cells t).registry = some r') : r' = r :=
    Option.some.inj (hr.symm.trans h)
  have hopened {i : Nat} {cfg : IndexConfiguration} (hcfg : E.Assembled t i cfg)
      (hr : (E.cells t).registry = some cfg.registry) : E.OpeningOf t d :=
    .opened (hcfg.opened d (hsame hr ▸ hd))
  cases hg with
  | ahead => exact hearly rfl
  | @build i _ hi =>
    have hstory := story hi
    cases g with
    | spawned | listing | publishing => exact hearly rfl
    | loaded r' | starting r' => exact .awaited (.build hi) (hsame hcarries ▸ hd)
    | assembling a =>
      exact Assembling.openingOf hstory (hsame hcarries ▸ hd) fun hd => .awaited (.build hi) hd
    | opening a d' rest =>
      refine hstory.2.openingOf (hsame hcarries ▸ hd) fun hd => .awaited (.build hi) ?_
      rw [hstory.1] at hd
      exact hd
    | caching cfg => exact hopened hstory hcarries
    | marking cfg b => exact hopened hstory hcarries.1
    | marked cfg => exact hopened hstory hcarries.registry
    | resolving o =>
      cases o with
      | error e => exact .failing (.build hi)
      | ok cfg =>
        cases hstory with
        | assembled hcfg => exact hopened hcfg hcarries.registry
    | confirming | ended =>
      obtain ⟨e | cfg, ho, hr⟩ := hstory
      · exact .failed ho
      · cases hr with
        | assembled hcfg => exact hopened hcfg (hcarries cfg ho).registry
    | unwound p =>
      obtain ⟨cfg, hcfg, hr⟩ := assembled_of_unwound hi
      exact hopened hcfg hr

/-- **A promised configuration has every index of the published registry opened.** -/
theorem opened_of_slot {cfg : IndexConfiguration}
    (hslot : (E.cells t).outcome.slot = some (.ok cfg)) (h : (E.cells t).registry = some r)
    {d : IndexDescriptor} (hd : d ∈ r.descriptors) :
    ∃ i, E.Answered t i (.openIndex d) (.returned (.ok ())) := by
  obtain rfl : cfg.registry = r := Option.some.inj ((ready_of_slot hslot).registry.symm.trans h)
  obtain ⟨i, g, hi, hg⟩ := exists_resolved hslot
  have hresult : ∃ o, (E.cells t).outcome.slot = some o ∧ E.Result t i o := by
    cases g with
    | confirming | ended => exact story hi
    | _ => cases hg
  obtain ⟨o, ho, hr⟩ := hresult
  cases ho.symm.trans hslot
  cases hr with
  | assembled hcfg => exact ⟨i, hcfg.opened d hd⟩

end Execution

end IndexCoordinator
