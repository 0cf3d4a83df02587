import IndexCoordinator.Proofs.Cycle.Coherence
import IndexCoordinator.Proofs.Cycle.Maintenance
import IndexCoordinator.Proofs.Service.Closing
import IndexCoordinator.Proofs.Service.Restriction
import IndexCoordinator.Proofs.Update.Claims

/-!
# Work that the disposal of storage overtakes

A shutdown of the service requests the shutdown of the cycles in the slots, disposes of storage, and
waits for nobody.  No cycle is new afterwards, and all of them are shut down.  But a build never
looks whether its cycle is, a maintenance task looks once, before its work, and an update looks at
the flag of the service when it comes in, or not at all when it comes in on a cycle.  These go on,
and so storage is asked for something after its disposal.

* `MaintenanceStage.ahead`       what a maintenance task that does not look again is going to ask for;
* `Execution.Disposes.shut`      every cycle that there is afterwards was there and is shut down;
* `Execution.Disposes.ahead`     a task has no more ahead than when storage was disposed of;
* `Execution.origin`             a call on a cycle came in there, or got there past the look at the flag;
* `Execution.Overtaken`          the work that asks storage for something after its disposal;
* `Execution.overtakes`          nothing else does.
-/

namespace IndexCoordinator

/-- what storage is asked for, its disposal apart -/
def Request.usesStorage : Request → Bool
  | .openIndex _ => true
  | .indexUnsaved _ _ => true
  | .deleteStaleIds => true
  | .bringUpToDate => true
  | _ => false

/-- what a maintenance task asks storage for from here on without another look at the flag -/
def MaintenanceStage.ahead : MaintenanceStage → List Request
  | .starting => [.deleteStaleIds, .bringUpToDate]
  | .deleting => [.bringUpToDate]
  | .entering => [.bringUpToDate]
  | _ => []

namespace Maintenance

variable {answer : Answering} {c : Cycle} {m : Maintenance} {p : Progress Cycle Maintenance}

/-- **On a cycle that is shut down a task gets nothing ahead of it.** -/
theorem Moves.ahead (h : Moves answer c m p) (hc : c.isShutdownRequested = true) :
    p.self.stage.ahead ⊆ m.stage.ahead := by
  cases h with
  | start _ hopen => cases hc.symm.trans hopen
  | delete hst | deleted hst =>
    rw [hst]
    simp [MaintenanceStage.ahead]
  | _ => exact List.nil_subset _

theorem Moves.mem_ahead (h : Moves answer c m p) {r : Request} (hr : .entered r ∈ p.events) :
    r ∈ m.stage.ahead := by
  obtain ⟨rfl, hst⟩ | ⟨rfl, hst⟩ := h.asks hr <;> rw [hst] <;> simp [MaintenanceStage.ahead]

end Maintenance

namespace Job

variable {fired : Bool} {answer : Answering} {w : Coordinator} {j : Job}
  {q : Progress Coordinator Job} {n : Nat}

theorem Moves.spawned_maintenance (h : Moves fired answer w j q) {m : Maintenance}
    (hm : .work n (.maintenance m) ∈ q.spawned) : m.stage = .waiting := by
  cases h with
  | work _ hp =>
    obtain ⟨k, hk, heq⟩ := List.mem_map.mp hm
    obtain rfl | ⟨promise, rfl⟩ := (Work.of_next hp).2.spawned k hk <;> cases heq
    rfl
  | submitted =>
    split at hm
    · cases List.mem_singleton.mp hm
    · cases hm
  | spawn => cases List.mem_singleton.mp hm
  | _ => cases hm

end Job

namespace Execution

section
variable (E : Services) (t i : Nat)

/-- a process asks a collaborator for something -/
def Asks (r : Request) : Prop :=
  ∃ j fired answer q, E.Moves t i j fired answer q ∧ .entered r ∈ q.events

/-- a call for the current cycle gets past the look at the flag -/
def PassesOn (call : CycleCall) : Prop :=
  E.proc? t i = some (.lookingUp call) ∧ E.proc? (t + 1) i = some (.loading call)

/-- where a call on cycle `n` has come from: its caller came in there, or came in for the current
cycle and got past the look at the flag -/
inductive Origin (n : Nat) (o : Operation) : Prop where
  | direct {s : Nat} {call : CycleCall} :
      s < t → E.Enters s i (.work n (.call call)) → call.operation = o → Origin n o
  | passed {s : Nat} {call : CycleCall} :
      s < t → E.PassesOn s i call → call.operation = o → Origin n o

/-- a process on cycle `n` that asks storage for something, when storage was asked to dispose of
itself at moment `d`: a build; a maintenance task that had it ahead at that moment; an update that
came in on the cycle; or one that got past the look at the flag before that moment -/
inductive Overtaken (d n : Nat) : Request → Prop where
  | build {a : Assembly} {descriptor : IndexDescriptor} :
      E.proc? t i = some (.work n (.genesis (.assembling a))) →
      Overtaken d n (.openIndex descriptor)
  | maintenance {m m' : Maintenance} {r : Request} :
      E.proc? d i = some (.work n (.maintenance m)) → r ∈ m.stage.ahead →
      E.proc? t i = some (.work n (.maintenance m')) → Overtaken d n r
  | direct {s : Nat} {call : CycleCall} {b : Batch} {success : Reply}
      {document : UnsavedDocument} :
      E.Enters s i (.work n (.call call)) → call.operation = .update →
      E.proc? t i = some (.work n (.call (.updating b success))) →
      Overtaken d n (.indexUnsaved b.index document)
  | passed {s : Nat} {call : CycleCall} {b : Batch} {success : Reply}
      {document : UnsavedDocument} :
      s < d → E.PassesOn s i call → call.operation = .update →
      E.proc? t i = some (.work n (.call (.updating b success))) →
      Overtaken d n (.indexUnsaved b.index document)

end

variable {E : Services} {d s t u i k n : Nat} {r : Request}

/-! ### after the disposal -/

theorem Disposes.shutDown (h : E.Disposes d k) (hdu : d ≤ u) :
    (E.cells u).service.shutDown = true := by
  obtain ⟨c, hcd, hclaim⟩ := h.exists_claim
  have hcu : c + 1 ≤ u := Nat.lt_of_lt_of_le hcd hdu
  exact (keeps hcu).shutDown hclaim.shutDown.2

/-- a service that is shut down makes no cycle any more -/
theorem exists_cycle_before {c : Cycle} (hs : (E.cells t).service.shutDown = true) (htu : t ≤ u)
    (hc : (E.cells u).cycle? n = some c) :
    ∃ c₀, (E.cells t).cycle? n = some c₀ ∧ c₀.Keeps c := by
  induction u, htu using Nat.le_induction generalizing c with
  | base => exact ⟨c, hc, .refl c⟩
  | succ u htu ih =>
    obtain hsame | ⟨i, j, fired, answer, q, hm⟩ := cells_succ (E := E) u
    · exact ih (hsame ▸ hc)
    cases hbefore : (E.cells u).cycle? n with
    | some c' =>
      obtain ⟨c₀, hc₀, hkeep⟩ := ih hbefore
      obtain ⟨c'', hc'', hkeep'⟩ := (keeps (Nat.le_succ u)).cycle n c' hbefore
      cases hc''.symm.trans hc
      exact ⟨c₀, hc₀, hkeep.trans hkeep'⟩
    | none =>
      -- only a change makes a cycle, inside its section, in which the flag is not set
      rw [hm.cells_succ] at hc
      obtain ⟨_, _, hself, _⟩ := hm.job.creates hbefore hc
      have hproc := hm.self_succ
      rw [hself] at hproc
      have hopen := ((orderly (E := E) (u + 1)).section (List.mem_of_getElem? hproc) rfl).1
      cases hopen.symm.trans ((keeps (Nat.le_succ_of_le htu)).shutDown hs)

theorem Disposes.shut {c : Cycle} (h : E.Disposes d k) (hdu : d ≤ u)
    (hc : (E.cells u).cycle? n = some c) :
    n < (E.cells d).cycles.length ∧ c.isShutdownRequested = true := by
  obtain ⟨c₀, hc₀, hkeep⟩ := exists_cycle_before (h.shutDown (Nat.le_refl d)) hdu hc
  exact ⟨(List.getElem?_eq_some_iff.mp hc₀).1,
    hkeep.shutdown (h.all_shut.2 c₀ (List.mem_of_getElem? hc₀))⟩

/-! ### maintenance tasks -/

/-- **What a task has ahead after the disposal it had ahead at the disposal.** -/
theorem Disposes.ahead {m : Maintenance} (h : E.Disposes d k) (hdu : d ≤ u)
    (hm : E.proc? u i = some (.work n (.maintenance m))) (hr : r ∈ m.stage.ahead) :
    ∃ m₀, E.proc? d i = some (.work n (.maintenance m₀)) ∧ r ∈ m₀.stage.ahead := by
  induction u, hdu using Nat.le_induction generalizing m with
  | base => exact ⟨m, hm, hr⟩
  | succ u hdu ih =>
    obtain hsame | ⟨j, fired, answer, q, hmove, hq⟩ | ⟨_, hj⟩ |
      ⟨l, j, fired, answer, q, hmove, hx, _⟩ := proc_of_succ hm
    · exact ih hsame hr
    · obtain ⟨x, c, p, rfl, hc, hp, hself⟩ | ⟨call, _, hself⟩ := hmove.job.of_work hq
      · obtain ⟨m', rfl⟩ := (Work.of_next hp).2.maintenance hself
        cases Work.moves_of_next hp with
        | maintain hstep =>
          obtain rfl := Work.maintenance.inj hself
          exact ih hmove.proc ((Maintenance.moves_of_next hstep).ahead (h.shut hdu hc).2 hr)
      · cases hself
    · obtain hj | hj | hj | ⟨_, _, hj⟩ | ⟨_, _, _, _, hj⟩ := hj <;> cases hj
    · rw [hmove.job.spawned_maintenance hx] at hr
      cases hr

/-! ### calls on a cycle -/

theorem PassesOn.shutDown {call : CycleCall} (h : E.PassesOn s i call) :
    (E.cells s).service.shutDown = false := by
  obtain ⟨hlook, hpassed⟩ := h
  obtain hstay | ⟨fired, answer, q, hm⟩ := Execution.proc_succ hlook
  · cases hstay.symm.trans hpassed
  have hself := hm.self_succ.symm.trans hpassed
  cases hm.job with
  | passOn hs => exact hs
  | reject => cases hself
  | acquire _ h => cases h
  | release h => cases h

/-- who gets past the look at the flag does so before the disposal -/
theorem PassesOn.lt {call : CycleCall} (h : E.PassesOn s i call) (hd : E.Disposes d k) : s < d := by
  by_contra hle
  cases h.shutDown.symm.trans (hd.shutDown (Nat.le_of_not_lt hle))

theorem passesOn_of_loading {call : CycleCall} (h : E.proc? t i = some (.loading call)) :
    ∃ s, s < t ∧ E.PassesOn s i call := by
  induction t with
  | zero => cases h
  | succ t ih =>
    obtain hsame | ⟨j, fired, answer, q, hm, hq⟩ | ⟨_, hj⟩ | ⟨l, j, fired, answer, q, hm, hx, _⟩ :=
      proc_of_succ h
    · obtain ⟨s, hs, hpass⟩ := ih hsame
      exact ⟨s, Nat.lt_succ_of_lt hs, hpass⟩
    · obtain rfl := hm.job.lookup.2 hq
      exact ⟨t, Nat.lt_succ_self t, hm.proc, h⟩
    · obtain hj | hj | hj | ⟨_, _, hj⟩ | ⟨_, _, _, _, hj⟩ := hj <;> cases hj
    · obtain ⟨_, g, hx⟩ | ⟨_, m, hx⟩ | ⟨next, hx⟩ := hm.job.spawned _ hx <;> cases hx

theorem Origin.mono {o : Operation} (h : E.Origin t i n o) (htu : t ≤ u) : E.Origin u i n o := by
  cases h with
  | direct hs he ho => exact .direct (Nat.lt_of_lt_of_le hs htu) he ho
  | passed hs hp ho => exact .passed (Nat.lt_of_lt_of_le hs htu) hp ho

/-- **Where a call on a cycle has come from.** -/
theorem origin {call : CycleCall} (h : E.proc? t i = some (.work n (.call call))) :
    E.Origin t i n call.operation := by
  induction t generalizing call with
  | zero => cases h
  | succ t ih =>
    have hsucc := Nat.le_succ t
    obtain hsame | ⟨j, fired, answer, q, hm, hq⟩ | ⟨he, _⟩ | ⟨l, j, fired, answer, q, hm, hx, _⟩ :=
      proc_of_succ h
    · exact (ih hsame).mono hsucc
    · obtain ⟨x, c, p, rfl, _, hp, hself⟩ | ⟨call, rfl, hself⟩ := hm.job.of_work hq
      · obtain ⟨call', rfl, ho⟩ := (Work.of_next hp).2.operation hself
        rw [ho]
        exact (ih hm.proc).mono hsucc
      · cases hself
        obtain ⟨s, hs, hpass⟩ := passesOn_of_loading hm.proc
        exact .passed (Nat.lt_succ_of_lt hs) hpass rfl
    · exact .direct (Nat.lt_succ_self t) he rfl
    · obtain ⟨_, g, hx⟩ | ⟨_, m, hx⟩ | ⟨next, hx⟩ := hm.job.spawned _ hx <;> cases hx

/-! ### who asks storage -/

theorem Asks.exists_work (h : E.Asks t i r) (hr : r.usesStorage = true) :
    ∃ n w c fired answer q, E.proc? t i = some (.work n w) ∧ (E.cells t).cycle? n = some c ∧
      Work.Moves fired answer c w q ∧ .entered r ∈ q.events := by
  obtain ⟨j, fired, answer, q, hm, he⟩ := h
  cases hm.job with
  | work hc hp => exact ⟨_, _, _, fired, answer, _, hm.proc, hc, Work.moves_of_next hp, he⟩
  | enter =>
    cases List.mem_singleton.mp he
    cases hr
  | disposed | panic => cases List.mem_singleton.mp he
  | _ => cases he

theorem Disposes.overtaken (h : E.Disposes d k) (hdt : d < t) {w : Work} {c : Cycle} {fired : Bool}
    {answer : Answering} {q : Progress Cycle Work} (hw : E.proc? t i = some (.work n w))
    (hm : Work.Moves fired answer c w q) (hq : .entered r ∈ q.events) (hr : r.usesStorage = true) :
    E.Overtaken t i d n r := by
  have hupkeep (hmain : r.isMaintenance = true) : E.Overtaken t i d n r := by
    obtain ⟨m, p, rfl, hmove, hp⟩ := hm.maintenance hq hmain
    obtain ⟨m₀, hm₀, hahead⟩ := h.ahead (Nat.le_of_lt hdt) hw (hmove.mem_ahead hp)
    exact .maintenance hm₀ hahead hw
  cases hm.asks hq with
  | openIndex a descriptor => exact .build hw
  | delete | bringUpToDate => exact hupkeep rfl
  | index b success document =>
    cases origin hw with
    | direct _ he ho => exact .direct he ho hw
    | passed _ hp ho => exact .passed (hp.lt h) hp ho hw
  | list | fileTypes => cases hr

/-- **What is still asked of storage after its disposal.**  In every execution of a service with any
callers of it and its cycles, and any answers of the collaborators, from the moment on at which
storage is asked to dispose of itself:

* every cycle that there is was there at that moment, and is shut down;
* whoever asks storage for anything works on such a cycle, and is its build, which opens an index; a
  maintenance task that at that moment was past its look at the flag of the cycle and had this
  request ahead of it; or an update, which came in on the cycle, or came in through the service and
  got past the look at its flag before that moment. -/
theorem overtakes (h : E.Disposes d k) :
    (∀ u n c, d ≤ u → (E.cells u).cycle? n = some c →
      n < (E.cells d).cycles.length ∧ c.isShutdownRequested = true) ∧
    ∀ t i r, d < t → E.Asks t i r → r.usesStorage = true →
      ∃ n, n < (E.cells d).cycles.length ∧ E.Overtaken t i d n r := by
  refine ⟨fun u n c hdu hc => h.shut hdu hc, fun t i r hdt hasks hr => ?_⟩
  obtain ⟨n, w, c, fired, answer, q, hw, hc, hm, hq⟩ := hasks.exists_work hr
  exact ⟨n, (h.shut (Nat.le_of_lt hdt) hc).1, h.overtaken hdt hw hm hq hr⟩

/-- a cycle is promoted, its maintenance task finds it open, and an update finds the service not shut
down; then a change comes in, its build gets to the index, and the service is shut down -/
def teardown : Services :=
  .ofList (.start {})
    ([(Job.changing .acquiring, List.replicate 9 0 ++ List.replicate 17 1 ++ List.replicate 7 2 ++
          List.replicate 2 3),
        (.lookingUp (.locating words.id [.plain 1 1]), [4]),
        (.changing .acquiring, List.replicate 9 5 ++ List.replicate 5 6),
        (.closing .acquiring, List.replicate 9 8 ++ [6] ++ List.replicate 3 3 ++
          List.replicate 5 4)].flatMap fun line =>
      .enter line.1 :: line.2.map fun i => .move i false (.granting [words]))
    start_isInitial (by
      intro j hj s
      obtain ⟨line, hline, hcue⟩ := List.mem_flatMap.mp hj
      obtain heq | hmove := List.mem_cons.mp hcue
      · cases heq
        simp only [List.mem_cons, List.not_mem_nil, or_false] at hline
        obtain rfl | rfl | rfl | rfl := hline
        · exact .inl rfl
        · exact .inr (.inr (.inr (.inl ⟨.locating _ _, trivial, rfl⟩)))
        · exact .inl rfl
        · exact .inr (.inl rfl)
      · obtain ⟨_, _, heq⟩ := List.mem_map.mp hmove
        cases heq)

set_option maxRecDepth 2000 in
theorem disposes_teardown : teardown.Disposes 62 8 :=
  ⟨_, _, _, _, .of_cue rfl rfl rfl, List.mem_singleton_self _⟩

set_option maxRecDepth 2000 in
theorem asks_teardown : teardown.Asks 63 6 (.openIndex words) ∧ teardown.Asks 64 3 .deleteStaleIds ∧
    teardown.Asks 66 3 .bringUpToDate ∧ teardown.Asks 71 4 (.indexUnsaved words.id (.plain 1 1)) :=
  ⟨⟨_, _, _, _, .of_cue rfl rfl rfl, List.mem_singleton_self _⟩,
    ⟨_, _, _, _, .of_cue rfl rfl rfl, List.mem_singleton_self _⟩,
    ⟨_, _, _, _, .of_cue rfl rfl rfl, List.mem_singleton_self _⟩,
    ⟨_, _, _, _, .of_cue rfl rfl rfl, List.mem_singleton_self _⟩⟩

/-- a build, a maintenance task and an update go on after the disposal -/
theorem overtakes_teardown :
    (∀ u n c, 62 ≤ u → (teardown.cells u).cycle? n = some c → c.isShutdownRequested = true) ∧
    (∃ n, teardown.Overtaken 63 6 62 n (.openIndex words)) ∧
    (∃ n, teardown.Overtaken 64 3 62 n .deleteStaleIds) ∧
    (∃ n, teardown.Overtaken 66 3 62 n .bringUpToDate) ∧
    ∃ n, teardown.Overtaken 71 4 62 n (.indexUnsaved words.id (.plain 1 1)) := by
  obtain ⟨hshut, hover⟩ := overtakes disposes_teardown
  obtain ⟨hopen, hdelete, hupdate, hindex⟩ := asks_teardown
  have hlt {t i : Nat} {r : Request} (ht : 62 < t) (h : teardown.Asks t i r)
      (hr : r.usesStorage = true) : ∃ n, teardown.Overtaken t i 62 n r := by
    obtain ⟨n, _, hn⟩ := hover t i r ht h hr
    exact ⟨n, hn⟩
  exact ⟨fun u n c hu hc => (hshut u n c hu hc).2, hlt (by decide) hopen rfl,
    hlt (by decide) hdelete rfl, hlt (by decide) hupdate rfl, hlt (by decide) hindex rfl⟩

/-- storage is asked for something after its disposal -/
theorem not_idle_after_disposal :
    ¬ ∀ (E : Services) d k t i r, E.Disposes d k → d < t → E.Asks t i r → r.usesStorage = false :=
  fun h => nomatch h teardown 62 8 63 6 _ disposes_teardown (by decide) asks_teardown.1

end Execution

end IndexCoordinator
