import IndexCoordinator.Proofs.Service.Updates

/-!
# Updates and the opening of indexes

An update needs nothing but a task, and the tasks are there as soon as the registry is published:
before the first index is opened, and still after an opening has failed.  So storage can be asked to
update an index that it has not opened.  It is not asked before the registry is there, and where the
build has succeeded, the index was opened.

* `Execution.AdmitsOn`      what is known of an index that is updated on a cycle of a service;
* `Execution.Comes.admits`  so it is whenever an update asks storage;
* `Execution.updates_after_registry`   all of it together.
-/

namespace IndexCoordinator

namespace Execution

/-- an index may be updated on a cycle of a service: it may in the execution of the cycle, and
storage has opened it for that cycle if a configuration is promised -/
structure AdmitsOn (E : Services) (t k : Nat) (d : IndexDescriptor) : Prop where
  traced : ∃ F σ, E.Tracing k t F σ ∧ F.Admits (σ t) d
  opened : ∀ c cfg, (E.cells t).cycle? k = some c → c.outcome.slot = some (.ok cfg) →
    E.AnsweredOn t k (.openIndex d) (.returned (.ok ()))

section
variable {E : Builds} {s t i : Nat} {fired : Bool} {answer : Answering} {w : Work}
  {q : Progress Cycle Work} {index id : IndexId} {document : UnsavedDocument}

theorem Enters.admits {documents : List UnsavedDocument}
    (h : E.Enters s i (.call (.locating index documents)))
    (hm : E.Moves t i w fired answer q) (hr : .entered (.indexUnsaved id document) ∈ q.events) :
    id = index ∧ ∃ d, d.id = index ∧ E.Admits t d := by
  obtain ⟨w', hw, hupdates⟩ := h.updates (h.lt_of_proc hm.proc)
  obtain rfl : w' = w := Option.some.inj (hw.symm.trans hm.proc)
  exact admits_of_task (hupdates.asks hm.work hr)

end

section
variable {E : Services} {s t u i k : Nat} {fired : Bool} {answer : Answering} {j : Job} {w : Work}
  {q : Progress Coordinator Job} {index id : IndexId} {document : UnsavedDocument}

theorem admitsOn_of_task {c : Cycle} (hc : (E.cells t).cycle? k = some c)
    (h : c.updateTask? index = some ⟨id⟩) :
    id = index ∧ ∃ d, d.id = index ∧ E.AdmitsOn t k d := by
  obtain ⟨F, σ, hF⟩ := exists_tracing hc
  have hcells := hF.cells (Nat.le_refl t) hc
  rw [← hcells] at h
  obtain ⟨hid, d, hd, hadmits⟩ := admits_of_task h
  refine ⟨hid, d, hd, ⟨F, σ, hF, hadmits⟩, fun c' cfg hc' hslot => ?_⟩
  obtain rfl : c = c' := Option.some.inj (hc.symm.trans hc')
  rw [← hcells] at hslot
  obtain ⟨i, hopened⟩ := hadmits.opened cfg hslot
  exact hF.answered i _ _ hopened

/-- **An update asks storage only for an index that may be updated** on the cycle it has come to. -/
theorem Comes.admits (h : E.Comes i index) (hm : E.Moves t i j fired answer q)
    (hr : .entered (.indexUnsaved id document) ∈ q.events) :
    ∃ k w d, j = .work k w ∧ id = index ∧ d.id = index ∧ E.AdmitsOn t k d := by
  have hupdates := h.updates hm.proc
  cases hm.job with
  | @work k w c p hc hp =>
    obtain ⟨c', hc', hw⟩ := hupdates
    obtain rfl : c = c' := Option.some.inj (hc.symm.trans hc')
    have htask := hw.asks (Work.moves_of_next hp) hr
    obtain ⟨hid, d, hd, hadmits⟩ := admitsOn_of_task hc htask
    exact ⟨k, w, d, rfl, hid, hd, hadmits⟩
  | enter | disposed | panic => cases List.mem_singleton.mp hr
  | _ => cases hr

/-- when an update asks storage on a cycle that was promoted, the index was opened for that cycle or
the build of the cycle has failed -/
theorem Enters.opened_or_failed {documents : List UnsavedDocument}
    (h : E.Enters s i (.lookingUp (.locating index documents)))
    (hm : E.Moves t i (.work k w) fired answer q)
    (hr : .entered (.indexUnsaved id document) ∈ q.events) {c : Cycle}
    (hc : (E.cells t).cycle? k = some c) (hg : 1 < c.generation) :
    (∃ d, d.id = index ∧ E.AnsweredOn t k (.openIndex d) (.returned (.ok ()))) ∨
      ∃ e, c.outcome.slot = some (.error e) := by
  obtain ⟨_, _, d, hj, _, hd, hadmits⟩ := Comes.admits (.service h) hm hr
  cases hj
  obtain ⟨j, hj, hled⟩ := h.led (h.lt_of_proc hm.proc)
  obtain rfl := Option.some.inj (hj.symm.trans hm.proc)
  have hcurrent : ∃ u, u < t ∧ (E.cells u).service.current = k := by
    cases w with
    | call =>
      obtain ⟨_, u, _, hut, hu⟩ := hled
      exact ⟨u, hut, hu⟩
    | ended =>
      obtain ⟨u, v, _, _, _, _, _, huv, hvt, hu, _⟩ := hled
      exact ⟨u, Nat.lt_trans huv hvt, hu⟩
    | _ => exact hled.elim
  obtain ⟨u, hut, rfl⟩ := hcurrent
  obtain ⟨c₀, hc₀⟩ := (orderly (E := E) u).ordered.exists_current
  obtain ⟨c', hc', hkeep⟩ := (keeps (Nat.le_of_lt hut)).cycle _ c₀ hc₀
  obtain rfl : c = c' := Option.some.inj (hc.symm.trans hc')
  obtain ⟨o, ho, _⟩ := current_ready hc₀ (hkeep.generation ▸ hg)
  have hslot := hkeep.outcome o ho
  cases o with
  | error e => exact .inr ⟨e, hslot⟩
  | ok cfg => exact .inl ⟨d, hd, hadmits.opened c cfg hc hslot⟩

end

/-- **What storage is asked to update.**  In every execution of a cycle with any callers, and of a
service with any callers of it and its cycles:

* an update on a cycle asks storage only for its own index, and only after the registry of the
  listing is published and has that index as one that reads content; the index was opened, or its
  opening is still to come or on its way, or the build has failed; and if a configuration is
  promised, the index was opened;
* the same holds for every update on a cycle of a service, whether it comes through the service or on
  the cycle, with the openings of that cycle;
* so an update through the service on a cycle that was promoted asks storage only for an index that
  was opened for that cycle, unless the build of the cycle has failed. -/
theorem updates_after_registry :
    (∀ (E : Builds) s t i index documents w fired answer q id document,
      E.Enters s i (.call (.locating index documents)) → E.Moves t i w fired answer q →
      .entered (.indexUnsaved id document) ∈ q.events →
      id = index ∧ ∃ d, d.id = index ∧ E.Admits t d) ∧
    (∀ (E : Services) t i index j fired answer q id document, E.Comes i index →
      E.Moves t i j fired answer q → .entered (.indexUnsaved id document) ∈ q.events →
      ∃ k w d, j = .work k w ∧ id = index ∧ d.id = index ∧ E.AdmitsOn t k d) ∧
    ∀ (E : Services) s t i index documents k w fired answer q id document c,
      E.Enters s i (.lookingUp (.locating index documents)) →
      E.Moves t i (.work k w) fired answer q → .entered (.indexUnsaved id document) ∈ q.events →
      (E.cells t).cycle? k = some c → 1 < c.generation →
      (∃ d, d.id = index ∧ E.AnsweredOn t k (.openIndex d) (.returned (.ok ()))) ∨
        ∃ e, c.outcome.slot = some (.error e) :=
  ⟨fun _ _ _ _ _ _ _ _ _ _ _ _ he hm hr => he.admits hm hr,
    fun _ _ _ _ _ _ _ _ _ _ hcomes hm hr => hcomes.admits hm hr,
    fun _ _ _ _ _ _ _ _ _ _ _ _ _ _ he hm hr hc hg => he.opened_or_failed hm hr hc hg⟩

/-- the extension host lists one index, and storage cannot open it -/
def withoutOpening : Answering
  | .openIndex _ => .returned (.error ⟨"disk full"⟩)
  | r => Answering.granting [words] r

/-- the opening of the one index fails, and an update of it comes in afterwards -/
def unopened : Builds :=
  .ofScript withoutOpening
    [(.submitting .claiming, ([0, 0, 0] ++ List.replicate 8 1).map (·, false)),
      (.locating words.id [.plain 1 1], [2, 2, 2, 2].map (·, false))]
    ⟨.submit, .update _ _⟩

theorem not_opened_unopened {t i : Nat} {d : IndexDescriptor} :
    ¬ unopened.Answered t i (.openIndex d) (.returned (.ok ())) := by
  rintro ⟨u, _, hends⟩
  cases hends.of_script

theorem moves_unopened :
    unopened.Enters 12 2 (.call (.locating words.id [.plain 1 1])) ∧
    ∃ w q, unopened.Moves 16 2 w false withoutOpening q ∧
      .entered (.indexUnsaved words.id (.plain 1 1)) ∈ q.events :=
  ⟨⟨rfl, rfl⟩, _, _, .of_cue rfl rfl rfl, List.mem_singleton_self _⟩

theorem moves_overlap :
    ∃ w q, overlap.Moves 37 3 (.work 1 w) false (.granting [words]) q ∧
      .entered (.indexUnsaved words.id (.plain 1 1)) ∈ q.events :=
  ⟨_, _, .of_cue rfl rfl rfl, List.mem_singleton_self _⟩

/-- an update comes after a failed opening, and another to a promoted cycle -/
theorem updates_after_registry_unopened :
    (∃ d, d.id = words.id ∧ unopened.Admits 16 d) ∧
    (∃ d, d.id = words.id ∧ overlap.AdmitsOn 37 1 d) ∧
    ∃ c, (overlap.cells 37).cycle? 1 = some c ∧
      ((∃ d, d.id = words.id ∧ overlap.AnsweredOn 37 1 (.openIndex d) (.returned (.ok ()))) ∨
        ∃ e, c.outcome.slot = some (.error e)) := by
  obtain ⟨hbuild, hservice, hpromoted⟩ := updates_after_registry
  obtain ⟨hcall, w, q, hm, hr⟩ := moves_unopened
  obtain ⟨w', q', hm', hr'⟩ := moves_overlap
  have hcomes := overlap_enters.1
  obtain ⟨_, _, d, hj, _, hd, hadmits⟩ := hservice _ _ _ _ _ _ _ _ _ _ (.service hcomes) hm' hr'
  cases hj
  have hordered := (orderly (E := overlap) 37).ordered
  have hlength : 1 < (overlap.cells 37).cycles.length := by decide +kernel
  have hc : (overlap.cells 37).cycle? 1 = some _ := List.getElem?_eq_getElem hlength
  have hg := hordered.generation 1 _ hc
  exact ⟨(hbuild _ _ _ _ _ _ _ _ _ _ _ _ hcall hm hr).2, ⟨d, hd, hadmits⟩, _, hc,
    hpromoted _ _ _ _ _ _ _ _ _ _ _ _ _ _ hcomes hm' hr' hc (by omega)⟩

/-- storage can be asked to update an index that it has not opened -/
theorem not_opened_before_update :
    ¬ ∀ (E : Builds) s t i index documents w fired answer q id document,
      E.Enters s i (.call (.locating index documents)) → E.Moves t i w fired answer q →
      .entered (.indexUnsaved id document) ∈ q.events →
      ∃ d j, d.id = id ∧ E.Answered t j (.openIndex d) (.returned (.ok ())) := by
  intro h
  obtain ⟨hcall, w, q, hm, hr⟩ := moves_unopened
  obtain ⟨d, j, _, hopened⟩ := h _ _ _ _ _ _ _ _ _ _ _ _ hcall hm hr
  exact not_opened_unopened hopened

end Execution

end IndexCoordinator
