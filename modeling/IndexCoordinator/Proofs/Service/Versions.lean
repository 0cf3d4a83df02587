import IndexCoordinator.Proofs.Cycle.Coherence
import IndexCoordinator.Proofs.Cycle.Maintenance
import IndexCoordinator.Proofs.Cycle.Openings
import IndexCoordinator.Proofs.Registry.Registration
import IndexCoordinator.Proofs.Service.Refusal
import IndexCoordinator.Proofs.Service.Restriction

/-!
# Versions that storage has opened

Storage opens an index with the version of a descriptor, and the configuration of a cycle reports
the versions that were opened for it.  Nothing stops a build, so the builds of several cycles open
the same index one after the other in any order, and the last to do so need not be the build of the
current cycle.

* `lastOpened?`             the descriptor of the last opening of an index that a trace knows of;
* `Execution.Opens`         storage has opened an index for a cycle;
* `Execution.Opens.version` the configuration of the cycle reports the version;
* `Execution.exists_youngest`   while the service is open, the youngest cycle is in play;
* `Execution.OpenedLast`    how an index of the current configuration was last opened;
* `Execution.last_opened`   who was the last to open an index of the current configuration;
* `Execution.not_last_opened`   it need not have been the build of the current cycle.
-/

namespace IndexCoordinator

/-! ## the last opening of a trace -/

def Event.opened? (id : IndexId) : Event → Option IndexDescriptor
  | .left (.openIndex d) .completed => if d.id = id then some d else none
  | _ => none

/-- the descriptor with which storage has last opened an index -/
def lastOpened? (id : IndexId) (trace : List Event) : Option IndexDescriptor :=
  trace.reverse.findSome? (Event.opened? id)

section
variable {id : IndexId} {d : IndexDescriptor} {trace events : List Event}

theorem Event.eq_of_opened? {e : Event} (h : e.opened? id = some d) :
    e = .left (.openIndex d) .completed ∧ d.id = id := by
  unfold Event.opened? at h
  split at h
  · split at h
    · next hid =>
      cases h
      exact ⟨rfl, hid⟩
    · cases h
  · cases h

theorem lastOpened?_append :
    lastOpened? id (trace ++ events) = (lastOpened? id events).or (lastOpened? id trace) := by
  simp [lastOpened?, List.findSome?_append]

theorem mem_of_lastOpened? (h : lastOpened? id trace = some d) :
    .left (.openIndex d) .completed ∈ trace ∧ d.id = id := by
  obtain ⟨e, he, hd⟩ := List.exists_of_findSome?_eq_some h
  obtain ⟨rfl, hid⟩ := Event.eq_of_opened? hd
  exact ⟨List.mem_reverse.mp he, hid⟩

theorem exists_lastOpened? (h : .left (.openIndex d) .completed ∈ trace) :
    ∃ d', lastOpened? d.id trace = some d' := by
  refine Option.isSome_iff_exists.mp (List.findSome?_isSome_iff.mpr ?_)
  exact ⟨_, List.mem_reverse.mpr h, by simp [Event.opened?]⟩

end

/-! ## who opens indexes -/

def Move.request? {α : Type} : Move α → Option Request
  | .call r _ => some r
  | _ => none

@[simp] theorem Move.request?_map {α β : Type} (f : α → β) (m : Move α) :
    (m.map f).request? = m.request? := by
  cases m <;> rfl

theorem Rebuild.request?_next (c : Cycle) (b : Rebuild) {r : Request}
    (h : (b.next c).request? = some r) : r = .registeredFileTypes := by
  cases b with
  | reading => cases hr : c.registry <;> simp only [Rebuild.next, hr] at h <;> cases h
  | asking registry =>
    cases h
    rfl
  | storing e => cases h

theorem Batch.request?_next {fired : Bool} {m : InFlight} {b : Batch} {r : Request}
    (h : (b.next fired m).request? = some r) : ∃ d, r = .indexUnsaved b.index d := by
  cases hs : b.stage <;> simp only [Batch.next, hs] at h
  case indexing d rest =>
    cases h
    exact ⟨d, rfl⟩
  all_goals
    repeat' split at h
    all_goals cases h

namespace Work

variable {fired : Bool} {answer : Answering} {c : Cycle} {w : Work} {q : Progress Cycle Work}
  {d : IndexDescriptor}

/-- whoever is inside the opening of an index is the build that opens it -/
theorem exists_opening (h : (Work.next fired c w).request? = some (.openIndex d)) :
    ∃ a rest, w = .genesis (.opening a d rest) := by
  cases w with
  | genesis g =>
    cases hn : Work.next fired c (.genesis g) with
    | call r resume =>
      rw [hn] at h
      cases h
      obtain ⟨hr, _⟩ | ⟨a, _, rest, hr, rfl⟩ | ⟨_, _, hr, _⟩ := Execution.calls_of_genesis hn <;>
        cases hr
      exact ⟨a, rest, rfl⟩
    | _ =>
      rw [hn] at h
      cases h
  | maintenance m =>
    simp only [Work.next, Move.request?_map] at h
    unfold Maintenance.next at h
    split at h <;> (try split at h) <;> cases h
  | call k =>
    cases k with
    | resettingHints b | markingInitialized b =>
      simp only [Work.next, CycleCall.next, Move.request?_map] at h
      cases b.request?_next c h
    | updating b success =>
      cases hb : b.result? <;>
        simp only [Work.next, CycleCall.next, hb, Move.request?_map] at h
      · obtain ⟨_, hr⟩ := Batch.request?_next h
        cases hr
      · cases h
    | _ =>
      simp only [Work.next, CycleCall.next] at h
      repeat' split at h
      all_goals cases h
  | ended r => cases h

end Work

theorem Job.Moves.opening {fired : Bool} {answer : Answering} {w : Coordinator} {j : Job}
    {q : Progress Coordinator Job} (h : Job.Moves fired answer w j q) {d : IndexDescriptor}
    (hd : .left (.openIndex d) .completed ∈ q.events) : ∃ k x, j = .work k x := by
  cases h with
  | work => exact ⟨_, _, rfl⟩
  | enter | disposed | panic => cases List.mem_singleton.mp hd
  | _ => cases hd

/-! ## the youngest cycle -/

namespace Job

/-- **The youngest cycle stays in play, or a younger one comes,** while the service is open. -/
theorem Moves.youngest {fired : Bool} {answer : Answering} {w : Coordinator} {j : Job}
    {q : Progress Coordinator Job} (h : Moves fired answer w j q)
    (hs : j.inside = true → w.Section j) (hopen : q.shared.service.shutDown = false) {k : Nat}
    (hlen : w.cycles.length = k + 1) :
    q.shared.cycles.length = k + 2 ∧ q.self.coming = some (k + 1) ∨
    q.shared.cycles.length = k + 1 ∧
      (w.service.current = k ∨ w.service.pending = some k ∨ j.coming = some k →
        q.shared.service.current = k ∨ q.shared.service.pending = some k ∨
          q.self.coming = some k) := by
  have haside (ha : w.Aside q.shared) (hj : q.self.coming = j.coming) :
      q.shared.cycles.length = k + 1 ∧
        (w.service.current = k ∨ w.service.pending = some k ∨ j.coming = some k →
          q.shared.service.current = k ∨ q.shared.service.pending = some k ∨
            q.self.coming = some k) := by
    rw [ha.length, ha.service, hj]
    exact ⟨hlen, id⟩
  cases h with
  | create =>
    refine .inl ⟨?_, congrArg some hlen⟩
    show (w.cycles ++ [_]).length = k + 2
    rw [List.length_append, hlen]
    rfl
  | acquire _ h =>
    unfold afterLock at h
    split at h <;> cases h <;> exact .inr ⟨hlen, id⟩
  | release h =>
    unfold afterUnlock at h
    split at h <;> cases h <;> exact .inr ⟨hlen, id⟩
  | work hc hq => exact .inr (haside (Coordinator.aside_setCycle hc (Work.of_next hq).1.keeps) rfl)
  | submit hc h | submitted hc h =>
    exact .inr (haside (Coordinator.aside_setCycle hc (Submission.keeps h).1) rfl)
  | supersede h | superseded h | retire h | retired h | abandon h | dropped h | stop h
  | stopped h => exact .inr (haside h.aside rfl)
  | @replace next | @install next =>
    -- whoever is in a slot is older than the cycle that comes
    obtain ⟨_, hcur, _, hpend⟩ := hs rfl
    refine .inr ⟨hlen, fun hk => .inr (.inl ?_)⟩
    obtain rfl | hk | hk := hk
    · omega
    · have := hpend k hk
      omega
    · exact hk
  | take hp =>
    refine .inr ⟨hlen, Or.imp_right fun hk => .inr ?_⟩
    obtain hk | hk := hk
    · exact hp.symm.trans hk
    · cases hk
  | swap =>
    obtain ⟨_, hpend, hcur, _⟩ := hs rfl
    refine .inr ⟨hlen, fun hk => .inl ?_⟩
    obtain rfl | hk | hk := hk
    · omega
    · cases hpend.symm.trans hk
    · exact Option.some.inj hk
  | drop | clear => cases hopen.symm.trans (hs rfl)
  | _ => exact .inr ⟨hlen, id⟩

end Job

namespace Run

variable {r : Run Coordinator Job} {i k : Nat} {j : Job} {q : Progress Coordinator Job}

theorem inPlay_commit (hj : r.procs[i]? = some j)
    (h : q.shared.service.current = k ∨ q.shared.service.pending = some k ∨
      q.self.coming = some k) : (r.commit i q).InPlay k :=
  h.imp_right <| Or.imp_right fun hk => ⟨q.self, mem_commit hj List.mem_cons_self, hk⟩

theorem InPlay.commit (h : r.InPlay k) (hj : r.procs[i]? = some j)
    (hkeep : r.shared.service.current = k ∨ r.shared.service.pending = some k ∨
        j.coming = some k →
      q.shared.service.current = k ∨ q.shared.service.pending = some k ∨
        q.self.coming = some k) : (r.commit i q).InPlay k := by
  obtain ⟨others, hp, hp'⟩ := exists_others hj
  obtain h | h | ⟨x, hx, hk⟩ := h
  · exact inPlay_commit hj (hkeep (.inl h))
  · exact inPlay_commit hj (hkeep (.inr (.inl h)))
  · obtain rfl | hx := List.mem_cons.mp (hp.mem_iff.mp hx)
    · exact inPlay_commit hj (hkeep (.inr (.inr hk)))
    · have hx' := List.mem_cons_of_mem q.self (List.mem_append_left q.spawned hx)
      exact .inr (.inr ⟨x, (hp' q).mem_iff.mpr hx', hk⟩)

end Run

/-- the cycle of a build that is not over, where a job is one -/
def Job.building? : Job → Option Nat
  | .work i (.genesis g) => if (Work.genesis g).isOver then none else some i
  | _ => none

/-- the configuration that the promise of the current cycle holds -/
def Coordinator.promised? (w : Coordinator) : Option IndexConfiguration :=
  w.current?.bind fun c => c.outcome.slot.bind Except.toOption

theorem Coordinator.promised?_eq_some {w : Coordinator} {cfg : IndexConfiguration} :
    w.promised? = some cfg ↔ ∃ c, w.current? = some c ∧ c.outcome.slot = some (.ok cfg) := by
  have hok (o : BuildOutcome) : o.toOption = some cfg ↔ o = .ok cfg := by
    cases o <;> simp [Except.toOption]
  simp [promised?, Option.bind_eq_some_iff, hok]

namespace Execution

section
variable (E : Services) (t u k : Nat)

/-- at moment `t` storage has opened an index for the cycle at a position -/
def Opens (d : IndexDescriptor) : Prop :=
  ∃ i x fired answer q, E.Moves t i (.work k x) fired answer q ∧
    .left (.openIndex d) .completed ∈ q.events

/-- how an index of the configuration of the current cycle was last opened before moment `t`, if the
opening for the current cycle was at moment `u`: for the current cycle, with the version that the
configuration reports; for an older cycle, later; or for a younger cycle, and then a younger one is
in play -/
inductive OpenedLast (cfg : IndexConfiguration) (d : IndexDescriptor) : Prop where
  | current {v : Nat} : u ≤ v → v < t → E.Opens v (E.cells t).service.current d →
      cfg.version? d.id = some d.version → OpenedLast cfg d
  | older {v k : Nat} : u < v → v < t → E.Opens v k d → k < (E.cells t).service.current →
      OpenedLast cfg d
  | younger {v k p : Nat} : u ≤ v → v < t → E.Opens v k d → (E.cells t).service.current < k →
      k ≤ p → (E.run t).InPlay p → OpenedLast cfg d

/-- from moment `u` up to `t` no build of a cycle before the one at a position is unfinished -/
def OlderOver : Prop :=
  ∀ v, u ≤ v → v < t → ∀ j ∈ (E.run v).procs, ∀ i ∈ j.building?, k ≤ i

end

section
variable {E : Services} {t u i k k' : Nat} {c : Cycle} {cfg : IndexConfiguration}
  {d d' : IndexDescriptor}

theorem Opens.exists_build (h : E.Opens t k d) : ∃ i a rest c,
    E.proc? t i = some (.work k (.genesis (.opening a d rest))) ∧
      (E.cells t).cycle? k = some c := by
  obtain ⟨i, x, fired, answer, q, hm, hd⟩ := h
  cases hm.job with
  | work hc hp =>
    obtain ⟨a, rest, rfl⟩ := (Work.moves_of_next hp).opening hd
    exact ⟨i, a, rest, _, hm.proc, hc⟩
  | acquire _ h => cases h
  | release h => cases h

theorem Opens.unique (h : E.Opens t k d) (h' : E.Opens t k' d') : k = k' := by
  obtain ⟨i, x, fired, answer, q, hm, _⟩ := h
  obtain ⟨i', x', fired', answer', q', hm', _⟩ := h'
  cases hm.cue.symm.trans hm'.cue
  cases hm.proc.symm.trans hm'.proc
  rfl

theorem CallEnds.opens (h : E.CallEnds t i (.openIndex d) (.returned (.ok ()))) {x : Work}
    (hx : E.proc? t i = some (.work k x)) : E.Opens t k d := by
  obtain ⟨j, fired, answer, resume, hm, hn, hans⟩ := h.moves
  obtain rfl : j = .work k x := Option.some.inj (hm.proc.symm.trans hx)
  refine ⟨i, x, fired, answer, _, hm, ?_⟩
  have hreq : (Job.next fired (E.cells t) (.work k x)).request? = some (.openIndex d) := by
    rw [hn]
    rfl
  have hleads := hm.leads
  cases hc : (E.cells t).cycle? k with
  | none =>
    simp only [Job.next, hc] at hreq
    cases hreq
  | some c =>
    simp only [Job.next, hc, Move.request?_map] at hreq
    obtain ⟨a, rest, rfl⟩ := Work.exists_opening hreq
    simp only [Job.next, hc, Work.next, Genesis.next, Move.under_map, Move.under_awaiting,
      Option.map_some, Option.some.injEq] at hleads
    rw [← hleads, hans]
    exact List.mem_singleton_self _

/-- **A trace ends with an opening that some cycle had.** -/
theorem Opens.last (h : E.Opens u k d) (hut : u < t) :
    ∃ v k' d', u ≤ v ∧ v < t ∧ E.Opens v k' d' ∧ d'.id = d.id ∧
      lastOpened? d.id (E.run t).trace = some d' := by
  induction t, hut using Nat.le_induction with
  | base =>
    obtain ⟨i, x, fired, answer, q, hm, hd⟩ := h
    obtain ⟨d', hlast⟩ := exists_lastOpened? hd
    obtain ⟨hd', hid⟩ := mem_of_lastOpened? hlast
    refine ⟨u, k, d', Nat.le_refl u, Nat.lt_succ_self u, ⟨i, x, fired, answer, q, hm, hd'⟩, hid, ?_⟩
    rw [hm.run, Run.trace_commit, lastOpened?_append, hlast]
    rfl
  | succ t hut ih =>
    obtain ⟨v, k', d', huv, hvt, hopens, hid, hlast⟩ := ih
    have hbefore (hsame : lastOpened? d.id (E.run (t + 1)).trace
        = lastOpened? d.id (E.run t).trace) : ∃ v k' d', u ≤ v ∧ v < t + 1 ∧ E.Opens v k' d' ∧
          d'.id = d.id ∧ lastOpened? d.id (E.run (t + 1)).trace = some d' :=
      ⟨v, k', d', huv, Nat.lt_succ_of_lt hvt, hopens, hid, hsame.trans hlast⟩
    obtain he | ⟨j, _, _, he⟩ | ⟨i, j, fired, answer, q, hm⟩ := tick (E := E) t
    · exact hbefore (by rw [he])
    · exact hbefore (by rw [he]; rfl)
    · have htrace : lastOpened? d.id (E.run (t + 1)).trace
          = (lastOpened? d.id q.events).or (lastOpened? d.id (E.run t).trace) := by
        rw [hm.run, Run.trace_commit, lastOpened?_append]
      cases hnew : lastOpened? d.id q.events with
      | none => exact hbefore (by rw [htrace, hnew, Option.none_or])
      | some d' =>
        obtain ⟨hd', hid⟩ := mem_of_lastOpened? hnew
        obtain ⟨k', x, rfl⟩ := hm.job.opening hd'
        refine ⟨t, k', d', Nat.le_of_lt hut, Nat.lt_succ_self t, ⟨i, x, _, _, q, hm, hd'⟩, hid, ?_⟩
        rw [htrace, hnew, Option.some_or]

/-! ### one cycle -/

theorem assembled_of_slot {F : Builds} (h : (F.cells t).outcome.slot = some (.ok cfg)) :
    ∃ i, F.Assembled t i cfg := by
  obtain ⟨i, g, hi, hg⟩ := exists_resolved h
  have hresult : ∃ o, (F.cells t).outcome.slot = some o ∧ F.Result t i o := by
    have hstory := story hi
    cases g with
    | confirming | ended => exact hstory
    | _ => cases hg
  obtain ⟨o, ho, hr⟩ := hresult
  cases ho.symm.trans h
  cases hr with
  | assembled hcfg => exact ⟨i, hcfg⟩

theorem version_of_slot {F : Builds} (h : (F.cells t).outcome.slot = some (.ok cfg))
    (hd : d ∈ cfg.registry.descriptors) : cfg.version? d.id = some d.version := by
  obtain ⟨i, hcfg⟩ := assembled_of_slot h
  obtain ⟨descriptors, _, hreg⟩ := hcfg.registered
  have hindexed := Genesis.indexed_register hreg
  rw [IndexConfiguration.version?, hcfg.versions, hindexed.lookup_versions,
    hindexed.descriptor?_of_mem hd]
  rfl

/-- **The configuration of a cycle reports every version with which an index was opened for it.** -/
theorem Opens.version (h : E.Opens u k d) (hut : u ≤ t) (hc : (E.cells t).cycle? k = some c)
    (hslot : c.outcome.slot = some (.ok cfg)) : cfg.version? d.id = some d.version := by
  obtain ⟨F, σ, hF⟩ := exists_restriction hc
  obtain ⟨i, a, rest, c', hproc, hc'⟩ := h.exists_build
  obtain ⟨i', hi'⟩ := hF.exists_proc hut hc' hproc
  obtain ⟨hremaining, _, opened, hdescriptors, _⟩ := story hi'
  have hcells := hF.cells (Nat.le_refl t) hc
  rw [← hcells] at hslot
  have hregistry := registry_kept (Stands.build hi').carries (hF.monotone u t hut)
  have hsame : cfg.registry = a.registry :=
    Option.some.inj ((ready_of_slot hslot).registry.symm.trans hregistry)
  refine version_of_slot hslot ?_
  rw [hsame, hdescriptors, hremaining]
  exact List.mem_append_right _ List.mem_cons_self

/-- **Every index of a promised configuration was opened for the cycle.** -/
theorem exists_opens (hc : (E.cells t).cycle? k = some c)
    (hslot : c.outcome.slot = some (.ok cfg)) (hd : d ∈ cfg.registry.descriptors) :
    ∃ u, u < t ∧ E.Opens u k d := by
  obtain ⟨F, σ, hF⟩ := exists_tracing hc
  rw [← hF.cells (Nat.le_refl t) hc] at hslot
  obtain ⟨i, hcfg⟩ := assembled_of_slot hslot
  obtain ⟨u, i', x, hu, hx, hends⟩ := hF.answered _ _ _ (hcfg.opened d hd)
  exact ⟨u, hu, hends.opens hx⟩

/-! ### all cycles -/

theorem exists_youngest (hopen : (E.cells t).service.shutDown = false) :
    ∃ k, (E.cells t).cycles.length = k + 1 ∧ (E.run t).InPlay k := by
  induction t with
  | zero =>
    obtain ⟨settings, hs⟩ := E.isInitial
    refine ⟨0, ?_, .inl ?_⟩
    · show E.first.cycles.length = 1
      rw [hs]
      rfl
    · rw [run_zero, hs]
      rfl
  | succ t ih =>
    have hbefore : (E.cells t).service.shutDown = false := by
      by_contra hs
      cases hopen.symm.trans ((keeps (Nat.le_succ t)).shutDown (Bool.not_eq_false _ ▸ hs))
    obtain ⟨k, hlen, hplay⟩ := ih hbefore
    obtain he | ⟨j, _, _, he⟩ | ⟨i, j, fired, answer, q, hm⟩ := tick (E := E) t
    · unfold cells
      rw [he]
      exact ⟨k, hlen, hplay⟩
    · unfold cells
      rw [he]
      exact ⟨k, hlen, hplay.imp_right <| Or.imp_right fun ⟨x, hx, hk⟩ =>
        ⟨x, List.mem_append_left _ hx, hk⟩⟩
    · rw [hm.cells_succ] at hopen ⊢
      rw [hm.run]
      obtain ⟨hlen', hcoming⟩ | ⟨hlen', hkeep⟩ := hm.job.youngest hm.section hopen hlen
      · exact ⟨k + 1, hlen', Run.inPlay_commit hm.proc (.inr (.inr hcoming))⟩
      · exact ⟨k, hlen', hplay.commit hm.proc hkeep⟩

theorem Opens.lt_length (h : E.Opens u k d) (hut : u ≤ t) : k < (E.cells t).cycles.length := by
  obtain ⟨_, _, _, c, _, hc⟩ := h.exists_build
  obtain ⟨c', hc', _⟩ := (keeps hut).cycle k c hc
  exact (List.getElem?_eq_some_iff.mp hc').1

/-- **The last opening** of an index of the configuration of the current cycle. -/
theorem Opens.openedLast (h : E.Opens u (E.cells t).service.current d) (hut : u < t)
    (hopen : (E.cells t).service.shutDown = false) (hcfg : (E.cells t).promised? = some cfg) :
    ∃ d', d'.id = d.id ∧ lastOpened? d.id (E.run t).trace = some d' ∧ E.OpenedLast t u cfg d' := by
  obtain ⟨c, hc, hslot⟩ := Coordinator.promised?_eq_some.mp hcfg
  obtain ⟨v, k, d', huv, hvt, hopens, hid, hlast⟩ := h.last hut
  refine ⟨d', hid, hlast, ?_⟩
  obtain hlt | rfl | hgt := Nat.lt_trichotomy k (E.cells t).service.current
  · have hne : u ≠ v := by
      rintro rfl
      exact Nat.ne_of_lt hlt (hopens.unique h)
    exact .older (Nat.lt_of_le_of_ne huv hne) hvt hopens hlt
  · exact .current huv hvt hopens (hopens.version (Nat.le_of_lt hvt) hc hslot)
  · obtain ⟨p, hlen, hplay⟩ := exists_youngest hopen
    have := hopens.lt_length (Nat.le_of_lt hvt)
    exact .younger huv hvt hopens hgt (by omega) hplay

theorem current_alone (hl : (E.cells t).service.locked = false)
    (hp : (E.cells t).service.pending = none) :
    ∀ p, (E.run t).InPlay p → p = (E.cells t).service.current := by
  intro p hplay
  obtain h | h := hplay.of_free (orderly t) hl
  · exact h.symm
  · cases hp.symm.trans h

/-- nobody comes after the current cycle where no build of an older cycle has been unfinished since,
and no other cycle is in play -/
theorem OpenedLast.version (h : E.OpenedLast t u cfg d)
    (hover : E.OlderOver t u (E.cells t).service.current)
    (halone : ∀ p, (E.run t).InPlay p → p = (E.cells t).service.current) :
    cfg.version? d.id = some d.version := by
  cases h with
  | current _ _ _ hversion => exact hversion
  | older huv hvt hopens hlt =>
    obtain ⟨i, a, rest, _, hproc, _⟩ := hopens.exists_build
    have hle := hover _ (Nat.le_of_lt huv) hvt _ (List.mem_of_getElem? hproc) _ rfl
    exact absurd hlt (Nat.not_lt_of_le hle)
  | younger _ _ _ hgt hle hplay =>
    rw [halone _ hplay] at hle
    exact absurd hgt (Nat.not_lt_of_le hle)

end

/-- **Who was the last to open an index.**  In every execution of a service with any callers of it
and its cycles, at every moment at which the service is open and the promise of the current cycle
holds a configuration, for every index of it:

* storage has opened the index for the current cycle, with the version that the configuration
  reports;
* it was last opened for the current cycle, with that version; or later for an older cycle; or for a
  younger cycle, and then a younger cycle is pending or on its way to a slot;
* so if since the opening for the current cycle no build of an older cycle has been unfinished, and
  no other cycle is pending or on its way to a slot, the index was last opened with the version that
  the configuration reports. -/
theorem last_opened {E : Services} {t : Nat} {cfg : IndexConfiguration} {id : IndexId}
    (hopen : (E.cells t).service.shutDown = false) (hcfg : (E.cells t).promised? = some cfg)
    (hid : id ∈ cfg.indexIds) :
    (∃ u d, u < t ∧ E.Opens u (E.cells t).service.current d ∧ d.id = id ∧
      cfg.version? id = some d.version) ∧
    ∀ u d, u < t → E.Opens u (E.cells t).service.current d → d.id = id →
      ∃ d', lastOpened? id (E.run t).trace = some d' ∧ E.OpenedLast t u cfg d' ∧
        (E.OlderOver t u (E.cells t).service.current →
          (∀ p, (E.run t).InPlay p → p = (E.cells t).service.current) →
          cfg.version? id = some d'.version) := by
  refine ⟨?_, fun u d hut hopens hd => ?_⟩
  · obtain ⟨c, hc, hslot⟩ := Coordinator.promised?_eq_some.mp hcfg
    obtain ⟨d, hd, rfl⟩ := List.mem_map.mp hid
    obtain ⟨u, hut, hopens⟩ := exists_opens hc hslot hd
    exact ⟨u, d, hut, hopens, rfl, hopens.version (Nat.le_of_lt hut) hc hslot⟩
  · subst hd
    obtain ⟨d', hid', hlast, hhow⟩ := hopens.openedLast hut hopen hcfg
    exact ⟨d', hlast, hhow, fun hover halone => hid' ▸ hhow.version hover halone⟩

/-- the execution of a script: the extensions change one time after the other, and after each change
the extension host lists given descriptors and processes move -/
def ofChanges (script : List (List IndexDescriptor × List Nat)) : Services :=
  .ofList (.start {})
    (script.flatMap fun line =>
      .enter (.changing .acquiring) :: line.2.map fun i => .move i false (.granting line.1))
    start_isInitial fun j hj _ => by
      obtain ⟨line, _, hcue⟩ := List.mem_flatMap.mp hj
      obtain heq | hmove := List.mem_cons.mp hcue
      · cases heq
        exact .inl rfl
      · obtain ⟨_, _, heq⟩ := List.mem_map.mp hmove
        cases heq

def newWords : IndexDescriptor := { words with version := 4 }

/-- the extensions change, the cycle is promoted, and the extensions change to a new version of the
index, whose cycle is promoted as well -/
def renewed : Services :=
  ofChanges [([words], List.replicate 9 0 ++ List.replicate 17 1 ++ List.replicate 7 2),
    ([newWords], List.replicate 9 4 ++ List.replicate 17 5 ++ List.replicate 7 6)]

/-- the extensions change to a new version while the first build is inside its opening; the second
cycle supersedes the first and is promoted, and then the first build goes on to its end -/
def overtaken : Services :=
  ofChanges [([words], List.replicate 9 0 ++ List.replicate 6 1),
    ([newWords], List.replicate 11 3 ++ List.replicate 17 4 ++ List.replicate 7 5 ++
      List.replicate 11 1)]

/-- the state of a script when no build is unfinished: the current cycle, its version of the index,
and the version with which storage has last opened the index -/
structure Ends (E : Services) (t current : Nat) (reported opened : UInt32) : Prop where
  isOpen : (E.cells t).service.shutDown = false
  current : (E.cells t).service.current = current
  ended : ∀ j ∈ (E.run t).procs, j.building? = none
  reported : (E.cells t).promised?.any (fun cfg =>
    words.id ∈ cfg.indexIds ∧ cfg.version? words.id = some reported) = true
  opened : (lastOpened? words.id (E.run t).trace).map (·.version) = some opened

section
variable {E : Services} {t current : Nat} {reported opened : UInt32}

theorem Ends.exists_promised (h : E.Ends t current reported opened) :
    ∃ cfg, (E.cells t).promised? = some cfg ∧ words.id ∈ cfg.indexIds ∧
      cfg.version? words.id = some reported := by
  obtain ⟨cfg, hcfg, hreported⟩ := (Option.any_eq_true _ _).mp h.reported
  exact ⟨cfg, hcfg, of_decide_eq_true hreported⟩

theorem Ends.eq_of_last (h : E.Ends t current reported opened) {cfg : IndexConfiguration}
    (hcfg : cfg.version? words.id = some reported)
    (hlast : ∃ d, lastOpened? words.id (E.run t).trace = some d ∧
      cfg.version? words.id = some d.version) : reported = opened := by
  obtain ⟨d, hd, hversion⟩ := hlast
  have hopened := h.opened
  rw [hd] at hopened
  exact (Option.some.inj (hcfg.symm.trans hversion)).trans (Option.some.inj hopened)

end

theorem ends_renewed : renewed.Ends 68 2 4 4 := by
  constructor <;> decide +kernel

theorem free_renewed : (renewed.cells 68).service.locked = false ∧
    (renewed.cells 68).service.pending = none := by
  decide +kernel

theorem over_renewed : renewed.OlderOver 68 50 2 := by
  unfold OlderOver
  decide +kernel

set_option maxRecDepth 2000 in
theorem opens_renewed : renewed.Opens 50 2 newWords :=
  ⟨5, _, _, _, _, .of_cue rfl rfl rfl, List.mem_singleton_self _⟩

/-- the new version is promoted, and it is the one that storage has opened last -/
theorem last_opened_renewed : ∃ cfg, (renewed.cells 68).promised? = some cfg ∧
    ∃ d, lastOpened? words.id (renewed.run 68).trace = some d ∧
      renewed.OpenedLast 68 50 cfg d ∧ cfg.version? words.id = some d.version := by
  have hends := ends_renewed
  obtain ⟨cfg, hcfg, hid, _⟩ := hends.exists_promised
  obtain ⟨d, hlast, hhow, hversion⟩ := (last_opened hends.isOpen hcfg hid).2 50 newWords
    (by decide) (hends.current ▸ opens_renewed) rfl
  exact ⟨cfg, hcfg, d, hlast, hhow, hversion (hends.current ▸ over_renewed)
    (current_alone free_renewed.1 free_renewed.2)⟩

theorem ends_overtaken : overtaken.Ends 63 2 4 3 := by
  constructor <;> decide +kernel

theorem ends_renewed_pending : renewed.Ends 61 1 3 4 := by
  constructor <;> decide +kernel

theorem over_renewed_pending : renewed.OlderOver 61 16 1 := by
  unfold OlderOver
  decide +kernel

theorem opens_renewed_pending : renewed.Opens 16 1 words :=
  ⟨1, _, _, _, _, .of_cue rfl rfl rfl, List.mem_singleton_self _⟩

/-- with no build unfinished, an index need not be opened last with the version that the
configuration reports: the build of a superseded cycle may have come last, and so may the build of a
cycle that is still pending -/
theorem not_last_opened :
    (¬ ∀ (E : Services) t cfg id, (E.cells t).service.shutDown = false →
      (∀ j ∈ (E.run t).procs, j.building? = none) → (E.cells t).promised? = some cfg →
      id ∈ cfg.indexIds →
      ∃ d, lastOpened? id (E.run t).trace = some d ∧ cfg.version? id = some d.version) ∧
    ¬ ∀ (E : Services) t u d cfg, (E.cells t).service.shutDown = false →
      (∀ j ∈ (E.run t).procs, j.building? = none) → (E.cells t).promised? = some cfg →
      d.id ∈ cfg.indexIds → E.Opens u (E.cells t).service.current d →
      E.OlderOver t u (E.cells t).service.current →
      ∃ d', lastOpened? d.id (E.run t).trace = some d' ∧ cfg.version? d.id = some d'.version := by
  refine ⟨fun h => ?_, fun h => ?_⟩
  · have hends := ends_overtaken
    obtain ⟨cfg, hcfg, hid, hreported⟩ := hends.exists_promised
    have hlast := h _ _ _ _ hends.isOpen hends.ended hcfg hid
    exact absurd (hends.eq_of_last hreported hlast) (by decide)
  · have hends := ends_renewed_pending
    obtain ⟨cfg, hcfg, hid, hreported⟩ := hends.exists_promised
    have hlast := h _ _ _ _ _ hends.isOpen hends.ended hcfg hid
      (hends.current ▸ opens_renewed_pending) (hends.current ▸ over_renewed_pending)
    exact absurd (hends.eq_of_last hreported hlast) (by decide)

end Execution

end IndexCoordinator
