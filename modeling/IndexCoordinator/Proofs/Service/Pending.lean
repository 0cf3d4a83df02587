import IndexCoordinator.Proofs.Service.Abandonment
import IndexCoordinator.Proofs.Service.Waiting

/-!
# Who takes the pending cycle out of its slot

A change puts its cycle into the slot of the pending cycle, submits the build of that cycle and
starts a promotion, which waits for the build and then takes the cycle out.  So when nothing of all
this can go on, the slot is empty, with two exceptions: the registry of file types has panicked on
the build, or a caller has shut the cycle down before its build had ended.

* `Job.settles`, `Execution.Idle`   the jobs that fill and empty the slot, and none of them can go on;
* `Job.promotes?`, `Execution.exists_promoter`   somebody promotes the pending cycle, unless it was
                                    abandoned;
* `Job.submitted?`, `Execution.exists_builder`   somebody builds it;
* `Execution.exists_claim`          whoever claimed the shutdown of a cycle;
* `Execution.Deserted`              the two exceptions;
* `Execution.pending_settles`       the pending slot when nothing can go on.
-/

namespace IndexCoordinator

/-! ## one move -/

theorem Submission.claims {c c' : Cycle} {t : Turn Submission Bool}
    (h : Submission.claiming.next c = (c', t)) : c'.buildSubmitted = true := by
  unfold Submission.next at h
  cases hb : c.buildSubmitted <;> simp only [hb] at h <;> cases h
  · rfl
  · exact hb

namespace Coordinator

def IsSubmitted (w : Coordinator) (k : Nat) : Prop :=
  ∃ c, w.cycle? k = some c ∧ c.buildSubmitted = true

theorem Keeps.isSubmitted {w w' : Coordinator} (h : w.Keeps w') {k : Nat} (hs : w.IsSubmitted k) :
    w'.IsSubmitted k := by
  obtain ⟨c, hc, hb⟩ := hs
  obtain ⟨c', hc', hk⟩ := h.cycle k c hc
  exact ⟨c', hc', hk.submitted hb⟩

end Coordinator

namespace Work

theorem isOver_of_blocked {fired : Bool} {c : Cycle} {g : Genesis}
    (h : Work.next fired c (.genesis g) = .blocked) : g = .ended ∨ ∃ p, g = .unwound p := by
  cases g with
  | ended => exact .inl rfl
  | unwound p => exact .inr ⟨p, rfl⟩
  | assembling a =>
    simp only [Work.next, Genesis.next] at h
    split at h <;> cases h
  | marking cfg b =>
    cases b with
    | reading =>
      cases hr : c.registry <;> simp only [Work.next, Genesis.next, Rebuild.next, hr] at h <;>
        cases h
    | _ => cases h
  | confirming e =>
    simp only [Work.next, Genesis.next] at h
    rcases hn : e.next c with ⟨c', e' | k⟩ <;> rw [hn] at h <;> cases h
  | _ => cases h

theorem next_submitting {fired : Bool} {c : Cycle} (s : Submission) :
    Work.next fired c (.call (.submitting s)) ≠ .blocked := by
  intro h
  simp only [Work.next, CycleCall.next] at h
  rcases hn : s.next c with ⟨c', s' | started⟩ <;> rw [hn] at h
  · cases h
  · cases started <;> cases h

end Work

theorem Work.Moves.unwound {fired : Bool} {answer : Answering} {c : Cycle} {w : Work}
    {q : Progress Cycle Work} {p : PanicPayload} (h : Work.Moves fired answer c w q)
    (hq : q.self = .genesis (.unwound p)) :
    answer .registeredFileTypes = .panicked p ∧
      ∃ k, w.next fired c = .call .registeredFileTypes k := by
  cases h with
  | listed =>
    unfold Genesis.afterListing at hq
    split at hq
    · split at hq <;> cases hq
    · cases hq
    · cases hq
  | opened =>
    unfold Genesis.afterOpening at hq
    split at hq <;> cases hq
  | mark hb =>
    cases hb with
    | panicked ha =>
      cases hq
      exact ⟨ha, _, rfl⟩
    | _ => cases hq
  | @resolve o => cases o <;> cases hq
  | reset hb | remark hb => cases hb <;> cases hq
  | waited =>
    unfold CycleCall.afterWait at hq
    split at hq
    · cases hq
    · split at hq <;> cases hq
    · cases hq
  | _ => cases hq

namespace Job

/-- changes, promotions, shutdowns of the service, and builds with their submissions -/
def settles : Job → Bool
  | .changing _ => true
  | .promoting _ _ => true
  | .closing _ => true
  | .work _ (.genesis _) => true
  | .work _ (.call (.submitting _)) => true
  | _ => false

/-- the pending cycle that a job is going to promote, or to have promoted -/
def promotes? : Job → Option Nat
  | .changing (.superseding next _ _) => some next
  | .changing (.releasing next) => some next
  | .changing (.spawning next) => some next
  | .promoting next .waiting => some next
  | .promoting next .acquiring => some next
  | .promoting next .comparing => some next
  | _ => none

def submitted? : Job → Option Nat
  | .changing (.submitting next .advancing) => some next
  | .changing (.submitting next .spawning) => some next
  | .changing (.replacing next) => some next
  | .changing (.superseding next _ _) => some next
  | .changing (.releasing next) => some next
  | .changing (.spawning next) => some next
  | .promoting next _ => some next
  | _ => none

section
variable {fired : Bool} {answer : Answering} {w : Coordinator} {j : Job}
  {q : Progress Coordinator Job} {k : Nat}

theorem submitted_of_promotes (h : j.promotes? = some k) : j.submitted? = some k := by
  unfold promotes? at h
  split at h <;> cases h <;> rfl

theorem settles_of_inside (h : j.inside = true) : j.settles = true := by
  unfold inside at h
  split at h <;> first | rfl | cases h

theorem settles_of_promotes (h : j.promotes? = some k) : j.settles = true := by
  unfold promotes? at h
  split at h <;> cases h <;> rfl

/-- work that is stuck under the service is stuck on its cycle -/
theorem next_of_blocked {x : Work} {c : Cycle} (h : Job.next fired w (.work k x) = .blocked)
    (hc : w.cycle? k = some c) : x.next fired c = .blocked := by
  simp only [Job.next, hc] at h
  cases hn : x.next fired c with
  | blocked => rfl
  | act | call => rw [hn] at h; cases h

/-- who puts a cycle into the slot is going to have it promoted -/
theorem Moves.pending (h : Moves fired answer w j q) (hq : q.shared.service.pending = some k) :
    w.service.pending = some k ∨ q.self.promotes? = some k := by
  cases h with
  | replace | install => exact .inr hq
  | take | drop | clear => cases hq
  | supersede h | superseded h | retire h | retired h | abandon h | dropped h | stop h
  | stopped h => exact .inl (h.aside.service ▸ hq)
  | _ => exact .inl hq

/-- **Who promotes the pending cycle goes on with it,** takes it out of the slot or gives it up. -/
theorem Moves.promotes (h : Moves fired answer w j q) (hj : j.promotes? = some k)
    (hp : w.service.pending = some k) :
    (∃ x ∈ q.self :: q.spawned, x.promotes? = some k) ∨ q.shared.service.pending ≠ some k ∨
      j = .promoting k .waiting ∧ q.self = .ended .done := by
  cases h with
  | acquire _ h =>
    unfold afterLock at h
    split at h <;> cases h <;> cases hj
    exact .inl ⟨_, List.mem_cons_self, rfl⟩
  | release h =>
    unfold afterUnlock at h
    split at h <;> cases h <;> cases hj
    exact .inl ⟨_, List.mem_cons_self, rfl⟩
  | supersede | superseded | built => exact .inl ⟨_, List.mem_cons_self, hj⟩
  | spawn => exact .inl ⟨_, List.mem_cons_of_mem _ (List.mem_singleton_self _), hj⟩
  | abandoned =>
    cases hj
    exact .inr (.inr ⟨rfl, rfl⟩)
  | take => exact .inr (.inl nofun)
  | pass hne =>
    cases hj
    exact absurd hp hne
  | _ => cases hj

theorem Moves.submission (h : Moves fired answer w j q) {x : Job} (hx : x ∈ q.self :: q.spawned)
    (hk : x.submitted? = some k) : j.submitted? = some k ∨ q.shared.IsSubmitted k := by
  have hself (hs : q.spawned = []) : q.self.submitted? = some k := by
    rw [hs] at hx
    exact List.mem_singleton.mp hx ▸ hk
  cases h with
  | work =>
    obtain rfl | hx := List.mem_cons.mp hx
    · cases hk
    · obtain ⟨_, _, rfl⟩ := List.mem_map.mp hx
      cases hk
  | acquire _ h =>
    have hk := hself rfl
    unfold afterLock at h
    split at h <;> cases h <;> cases hk
    exact .inl rfl
  | release h =>
    have hk := hself rfl
    unfold afterUnlock at h
    split at h <;> cases h <;> cases hk
    exact .inl rfl
  | @submit next s s' c c' hc hs =>
    have hk := hself rfl
    cases s with
    | claiming =>
      have hb := Submission.claims hs
      cases s' <;> cases hk <;> exact .inr ⟨c', Coordinator.cycle?_setCycle_self hc c', hb⟩
    | advancing =>
      cases hs
      exact .inl hk
    | spawning => cases hs
  | @submitted next s c c' started hc hs =>
    obtain rfl : next = k := by
      obtain rfl | hx := List.mem_cons.mp hx
      · exact Option.some.inj hk
      · split at hx
        · obtain rfl := List.mem_singleton.mp hx
          cases hk
        · cases hx
    cases s with
    | claiming =>
      exact .inr ⟨c', Coordinator.cycle?_setCycle_self hc c', Submission.claims hs⟩
    | advancing => cases hs
    | spawning => exact .inl rfl
  | spawn =>
    obtain rfl | hx := List.mem_cons.mp hx
    · cases hk
    · obtain rfl := List.mem_singleton.mp hx
      exact .inl hk
  | replace | install | supersede | superseded | built | take | pass | swap | retire | retired =>
    exact .inl (hself rfl)
  | _ => cases hself rfl

theorem Moves.spawned_genesis (h : Moves fired answer w j q) {g : Genesis}
    (hx : .work k (.genesis g) ∈ q.spawned) : g = .spawned := by
  cases h with
  | work hc hp =>
    obtain ⟨x, hx, he⟩ := List.mem_map.mp hx
    obtain rfl | ⟨_, rfl⟩ := (Work.of_next hp).2.spawned x hx <;> cases he
    rfl
  | submitted =>
    split at hx
    · cases List.mem_singleton.mp hx
      rfl
    · cases hx
  | spawn => cases List.mem_singleton.mp hx
  | _ => cases hx

theorem Moves.claims (h : Moves fired answer w j q)
    (hlookup : ∀ call, j = .loading call → IsLookup call) {c' : Cycle}
    (hc' : q.shared.cycle? k = some c') (hreq : c'.isShutdownRequested = true) :
    (∃ c, w.cycle? k = some c ∧ c.isShutdownRequested = true) ∨
      j.site? = some (k, .call (.shuttingDown .claiming)) := by
  obtain hnone | ⟨c, hc⟩ := Option.eq_none_or_eq_some (w.cycle? k)
  · obtain ⟨rfl, _⟩ := h.creates hnone hc'
    cases hreq
  cases h.local hc hlookup with
  | aside hsame =>
    obtain rfl := Option.some.inj (hsame.symm.trans hc')
    exact .inl ⟨c, hc, hreq⟩
  | comes hsame =>
    obtain rfl := Option.some.inj (hsame.symm.trans hc')
    exact .inl ⟨c, hc, hreq⟩
  | @moves x fired answer p hon hp hshared =>
    obtain rfl := Option.some.inj (hshared.symm.trans hc')
    by_cases hx : ∃ s, x = .call (.shuttingDown s)
    · obtain ⟨s, rfl⟩ := hx
      cases s with
      | claiming => exact .inr (on?_eq_some.mp hon)
      | cancelling =>
        cases hp
        exact .inl ⟨c, hc, hreq⟩
    · have hsame := (Work.of_next hp).1.isShutdownRequested fun s hs => hx ⟨s, hs⟩
      exact .inl ⟨c, hc, hsame ▸ hreq⟩

end

end Job

namespace Execution

/-- no change, no promotion, no shutdown of the service and no build can take a step, and none of
them is inside a call of a collaborator -/
def Idle (E : Services) (t : Nat) : Prop :=
  ∀ i j fired, E.proc? t i = some j → j.settles = true → Job.next fired (E.cells t) j = .blocked

/-- why nobody is left to take a cycle out of its slot: the registry of file types has panicked on its
build, or a caller has claimed its shutdown before its build had ended -/
inductive Deserted (E : Services) (t k : Nat) : Prop where
  | unwound {i : Nat} {p : PanicPayload} : E.proc? t i = some (.work k (.genesis (.unwound p))) →
      E.Answered t i .registeredFileTypes (.panicked p) → Deserted E t k
  | shutDown {u i : Nat} {fired : Bool} {answer : Answering} {q : Progress Coordinator Job} :
      u < t → E.Moves u i (.work k (.call (.shuttingDown .claiming))) fired answer q →
      ¬ (E.cells u).IsBuilt k → Deserted E t k

variable {E : Services} {t u i k : Nat} {j : Job}

/-! ### the promotion -/

/-- **The pending cycle has somebody who promotes it,** or was abandoned. -/
theorem exists_promoter (h : (E.cells t).service.pending = some k) :
    (∃ j ∈ (E.run t).procs, j.promotes? = some k) ∨ ∃ u, u ≤ t ∧ (E.cells u).Abandoned k := by
  induction t with
  | zero =>
    obtain ⟨settings, hs⟩ := E.isInitial
    have hfirst : E.cells 0 = .start settings := hs
    rw [hfirst] at h
    cases h
  | succ t ih =>
    obtain hold | ⟨j, hj, hk⟩ : (E.cells t).service.pending = some k ∨
        ∃ j ∈ (E.run (t + 1)).procs, j.promotes? = some k := by
      obtain he | ⟨i, j, fired, answer, q, hm⟩ := cells_succ (E := E) t
      · exact .inl (he ▸ h)
      · rw [hm.cells_succ] at h
        exact (hm.job.pending h).imp_right fun hk =>
          ⟨q.self, hm.mem_succ List.mem_cons_self, hk⟩
    · obtain ⟨j, hj, hk⟩ | ⟨u, hu, habandoned⟩ := ih hold
      · obtain ⟨i, hi⟩ := List.getElem?_of_mem hj
        obtain hstay | ⟨fired, answer, q, hm⟩ := Execution.proc_succ (E := E) hi
        · exact .inl ⟨j, List.mem_of_getElem? hstay, hk⟩
        obtain ⟨x, hx, hxk⟩ | hne | ⟨rfl, hq⟩ := hm.job.promotes hk hold
        · exact .inl ⟨x, hm.mem_succ hx, hxk⟩
        · rw [← hm.cells_succ] at hne
          exact absurd h hne
        · exact .inr ⟨t, Nat.le_succ t, hm.abandoned hq⟩
      · exact .inr ⟨u, Nat.le_succ_of_le hu, habandoned⟩
    · exact .inl ⟨j, hj, hk⟩

/-! ### the build -/

theorem isSubmitted (h : E.proc? t i = some j) (hk : j.submitted? = some k) :
    (E.cells t).IsSubmitted k := by
  induction t generalizing i j with
  | zero => cases h
  | succ t ih =>
    have hkeep := (keeps (E := E) (Nat.le_succ t)).isSubmitted (k := k)
    have hmoved {i' : Nat} {j' : Job} {fired : Bool} {answer : Answering}
        {q : Progress Coordinator Job} (hm : E.Moves t i' j' fired answer q)
        (hx : j ∈ q.self :: q.spawned) : (E.cells (t + 1)).IsSubmitted k := by
      obtain hk | hk := hm.job.submission hx hk
      · exact hkeep (ih hm.proc hk)
      · exact hm.cells_succ ▸ hk
    obtain h' | ⟨j', fired, answer, q, hm, rfl⟩ | ⟨_, hb⟩ |
      ⟨i', j', fired, answer, q, hm, hx, _⟩ := proc_of_succ h
    · exact hkeep (ih h' hk)
    · exact hmoved hm List.mem_cons_self
    · obtain rfl | rfl | rfl | ⟨_, _, rfl⟩ | ⟨_, _, _, _, rfl⟩ := hb <;> cases hk
    · exact hmoved hm (List.mem_cons_of_mem _ hx)

/-- **A cycle whose build is submitted has somebody who builds it,** or is about to start that. -/
theorem exists_builder (h : (E.cells t).IsSubmitted k) :
    ∃ j ∈ (E.run t).procs, (∃ g, j = .work k (.genesis g)) ∨
      (∃ s, j = .work k (.call (.submitting s))) ∨ ∃ s, j = .changing (.submitting k s) := by
  obtain ⟨c, hc, hb⟩ := h
  obtain ⟨F, σ, hF⟩ := exists_restriction hc
  have hone : (F.run (σ t)).procs.countP Work.builds = 1 := by
    refine (F.reachable (σ t)).submitted.trans (if_pos ?_)
    show (F.cells (σ t)).buildSubmitted = true
    rw [hF.cells (Nat.le_refl t) hc]
    exact hb
  obtain ⟨x, hx, hbuilds⟩ := List.countP_pos_iff.mp (hone ▸ Nat.one_pos)
  have hreply : x.reply? = none := by
    cases x with
    | ended => cases hbuilds
    | _ => rfl
  obtain ⟨j, hj, hon⟩ := (hF.restricts t (Nat.le_refl t) c hc).exists_job hx hreply
  refine ⟨j, hj, ?_⟩
  have hsite := Job.on?_eq_some.mp hon
  unfold Job.site? at hsite
  split at hsite <;> cases hsite
  · unfold Work.builds at hbuilds
    split at hbuilds
    · exact .inl ⟨_, rfl⟩
    · exact .inr (.inl ⟨_, rfl⟩)
    · exact .inr (.inl ⟨_, rfl⟩)
    · cases hbuilds
  · exact .inr (.inr ⟨_, rfl⟩)
  all_goals cases hbuilds

theorem isBuilt_of_ended (h : E.proc? t i = some (.work k (.genesis .ended))) :
    (E.cells t).IsBuilt k := by
  have hlt := (Run.Reachable.sited (E.reachable t)).site _ (List.mem_of_getElem? h) k _ rfl
  have hc : (E.cells t).cycle? k = some _ := List.getElem?_eq_getElem hlt
  obtain ⟨F, σ, hF⟩ := exists_restriction hc
  obtain ⟨i', hi'⟩ := hF.exists_proc (Nat.le_refl t) hc h
  have hstory : ∃ o, (F.cells (σ t)).outcome.slot = some o ∧ F.Result (σ t) i' o := story hi'
  obtain ⟨o, ho, _⟩ := hstory
  rw [hF.cells (Nat.le_refl t) hc] at ho
  exact ⟨_, o, hc, ho⟩

theorem answered_of_unwound {p : PanicPayload}
    (h : E.proc? t i = some (.work k (.genesis (.unwound p)))) :
    E.Answered t i .registeredFileTypes (.panicked p) := by
  induction t with
  | zero => cases h
  | succ t ih =>
    obtain h' | ⟨j, fired, answer, q, hm, hq⟩ | ⟨_, hb⟩ | ⟨i', j, fired, answer, q, hm, hx, _⟩ :=
      proc_of_succ h
    · exact (ih h').mono (Nat.le_succ t)
    · have hj := hm.job
      cases hj with
      | @work k' x c p' hc hp =>
        have hself : p'.self = .genesis (.unwound p) := (Job.work.inj hq).2
        obtain ⟨ha, f, hn⟩ := (Work.moves_of_next hp).unwound hself
        have hcall : Job.next fired (E.cells t) (.work k' x)
            = .call .registeredFileTypes fun a => (f a).map ((E.cells t).setCycle k') (.work k') := by
          simp only [Job.next, hc, hn, Move.map]
        exact ha ▸ hm.answered hcall
      | acquire _ h =>
        unfold Job.afterLock at h
        split at h <;> cases h <;> cases hq
      | release h =>
        unfold Job.afterUnlock at h
        split at h <;> cases h <;> cases hq
      | _ => cases hq
    · obtain hj | hj | hj | ⟨_, _, hj⟩ | ⟨_, _, _, _, hj⟩ := hb <;> cases hj
    · cases hm.job.spawned_genesis hx

/-! ### the shutdown of a cycle -/

/-- **Whoever requested the shutdown of a cycle has claimed it.** -/
theorem exists_claim {c : Cycle} (hc : (E.cells t).cycle? k = some c)
    (hreq : c.isShutdownRequested = true) :
    ∃ u i j fired answer q, u < t ∧ E.Moves u i j fired answer q ∧
      j.site? = some (k, .call (.shuttingDown .claiming)) := by
  induction t generalizing c with
  | zero =>
    obtain ⟨settings, hs⟩ := E.isInitial
    have hfirst : E.cells 0 = .start settings := hs
    rw [hfirst] at hc
    obtain ⟨_, rfl⟩ := Coordinator.cycle?_start hc
    cases hreq
  | succ t ih =>
    have hbefore {c : Cycle} (hc : (E.cells t).cycle? k = some c)
        (hreq : c.isShutdownRequested = true) :
        ∃ u i j fired answer q, u < t + 1 ∧ E.Moves u i j fired answer q ∧
          j.site? = some (k, .call (.shuttingDown .claiming)) := by
      obtain ⟨u, i, j, fired, answer, q, hu, hclaim⟩ := ih hc hreq
      exact ⟨u, i, j, fired, answer, q, Nat.lt_succ_of_lt hu, hclaim⟩
    obtain he | ⟨i, j, fired, answer, q, hm⟩ := cells_succ (E := E) t
    · exact hbefore (he ▸ hc) hreq
    · have hlookup (call : CycleCall) (hj : j = .loading call) : Job.IsLookup call :=
        (Run.Reachable.sited (E.reachable t)).lookup call
          (.inr (hj ▸ List.mem_of_getElem? hm.proc))
      rw [hm.cells_succ] at hc
      obtain ⟨c₀, hc₀, hreq₀⟩ | hsite := hm.job.claims hlookup hc hreq
      · exact hbefore hc₀ hreq₀
      · exact ⟨t, i, j, fired, answer, q, Nat.lt_succ_self t, hm, hsite⟩

/-- as long as the service is open, only callers shut the pending cycle down -/
theorem Moves.caller {fired : Bool} {answer : Answering} {q : Progress Coordinator Job}
    (hm : E.Moves u i j fired answer q) (hj : j.site? = some (k, .call (.shuttingDown .claiming)))
    (hut : u ≤ t) (hopen : (E.cells t).service.shutDown = false)
    (hpend : (E.cells t).service.pending = some k) :
    j = .work k (.call (.shuttingDown .claiming)) := by
  have hopen' : (E.cells u).service.shutDown = false := by
    by_contra hs
    rw [(keeps hut).shutDown (Bool.not_eq_false _ ▸ hs)] at hopen
    cases hopen
  have hgoing (hgo : j.going = some k) : False := by
    obtain ⟨hout, hlt⟩ := (orderly u).of_going (List.mem_of_getElem? hm.proc) hgo hopen'
    exact not_inPlay hut hlt hout (.inr (.inl hpend))
  unfold Job.site? at hj
  split at hj <;> cases hj
  · rfl
  · exact (hgoing rfl).elim
  · exact (hgoing rfl).elim
  · exact (hgoing rfl).elim
  · cases hopen'.symm.trans (hm.section rfl).1

/-! ### when nothing can go on -/

theorem Idle.locked (h : E.Idle t) : (E.cells t).service.locked = false := by
  by_contra hl
  obtain ⟨i, j, hj, hin, hdispose | ⟨j', hj', hmove⟩⟩ := exists_holder (Bool.not_eq_false _ ▸ hl)
  · subst hdispose
    cases h i _ false hj rfl
  · cases hj.symm.trans hj'
    obtain ⟨q, hq⟩ := hmove false
    cases hq.symm.trans (h i j false hj (Job.settles_of_inside hin))

theorem Idle.promoting (h : E.Idle t) (hi : E.proc? t i = some j) (hk : j.promotes? = some k)
    {c : Cycle} (hc : (E.cells t).cycle? k = some c) : c.outcome.slot = none := by
  have hblocked := h i j false hi (Job.settles_of_promotes hk)
  have hinside (hin : j.inside = true) : False := by
    obtain rfl | hmove := Job.next_of_inside hin
      ((orderly t).section (List.mem_of_getElem? hi) hin)
    · cases hk
    · obtain ⟨q, hq⟩ := hmove false
      cases hq.symm.trans hblocked
  unfold Job.promotes? at hk
  split at hk <;> cases hk
  · exact (hinside rfl).elim
  · exact (hinside rfl).elim
  · cases hblocked
  · simp only [Job.next, Job.nextPromotion, hc, Promise.look] at hblocked
    cases hs : c.outcome.slot with
    | none => rfl
    | some o =>
      rw [hs] at hblocked
      cases hblocked
  · simp only [Job.next, Job.nextPromotion, Job.acquire, h.locked] at hblocked
    cases hblocked
  · exact (hinside rfl).elim

theorem Idle.building (h : E.Idle t) (hs : (E.cells t).IsSubmitted k)
    (hb : ¬ (E.cells t).IsBuilt k) :
    ∃ i p, E.proc? t i = some (.work k (.genesis (.unwound p))) := by
  obtain ⟨c, hc, _⟩ := id hs
  obtain ⟨j, hj, hbuilder⟩ := exists_builder hs
  obtain ⟨i, hi⟩ := List.getElem?_of_mem hj
  obtain ⟨g, rfl⟩ | ⟨s, rfl⟩ | ⟨s, rfl⟩ := hbuilder
  · obtain rfl | ⟨p, rfl⟩ := Work.isOver_of_blocked (Job.next_of_blocked (h i _ false hi rfl) hc)
    · exact absurd (isBuilt_of_ended hi) hb
    · exact ⟨i, p, hi⟩
  · exact absurd (Job.next_of_blocked (h i _ false hi rfl) hc) (Work.next_submitting s)
  · obtain hd | hmove := Job.next_of_inside (j := .changing (.submitting k s)) rfl
      ((orderly t).section hj rfl)
    · cases hd
    · obtain ⟨q, hq⟩ := hmove false
      cases hq.symm.trans (h i _ false hi rfl)

/-- **A cycle that stays in its slot is deserted.** -/
theorem Idle.deserted (h : E.Idle t) (hp : (E.cells t).service.pending = some k) :
    E.Deserted t k := by
  have hopen : (E.cells t).service.shutDown = false := by
    by_contra hs
    cases hp.symm.trans (closed_of_free t h.locked (Bool.not_eq_false _ ▸ hs)).1
  have hc : (E.cells t).cycle? k = some _ :=
    List.getElem?_eq_getElem ((orderly t).ordered.pending k hp).2
  obtain ⟨j, hj, hk⟩ | ⟨v, hvt, c, hcv, hreq, hslot⟩ := exists_promoter hp
  · obtain ⟨i, hi⟩ := List.getElem?_of_mem hj
    have hslot := h.promoting hi hk hc
    have hnot : ¬ (E.cells t).IsBuilt k := by
      rintro ⟨c, o, hc', ho⟩
      obtain rfl := Option.some.inj (hc.symm.trans hc')
      cases hslot.symm.trans ho
    obtain ⟨i', p, hi'⟩ := h.building (isSubmitted hi (Job.submitted_of_promotes hk)) hnot
    exact .unwound hi' (answered_of_unwound hi')
  · obtain ⟨u, i, j, fired, answer, q, huv, hm, hsite⟩ := exists_claim hcv hreq
    have hut : u < t := Nat.lt_of_lt_of_le huv hvt
    obtain rfl := hm.caller hsite (Nat.le_of_lt hut) hopen hp
    refine .shutDown hut hm fun hbuilt => ?_
    obtain ⟨c', o, hc', ho⟩ := (keeps (Nat.le_of_lt huv)).isBuilt hbuilt
    obtain rfl := Option.some.inj (hc'.symm.trans hcv)
    cases hslot.symm.trans ho

/-- **The pending slot settles.**  Let no change, no promotion, no shutdown of the service and no
build be able to take a step, and none of them be inside a call of a collaborator.  Then the lock is
free.  Either the slot is empty, and everyone who waits for the pending cycle can go on; or the
pending cycle is deserted: the registry of file types has panicked on its build, or a caller has shut
it down before its build had ended. -/
theorem pending_settles (h : E.Idle t) :
    (E.cells t).service.locked = false ∧
    ((E.cells t).service.pending = none ∧
        (∀ i s, E.proc? t i = some (.awaitingPending s) → E.CanMove t i) ∨
      ∃ k, (E.cells t).service.pending = some k ∧ E.Deserted t k) := by
  refine ⟨h.locked, ?_⟩
  cases hp : (E.cells t).service.pending with
  | some k => exact .inr ⟨k, rfl, h.deserted hp⟩
  | none =>
    refine .inl ⟨rfl, fun i s hi => ⟨_, hi, fun fired => ?_⟩⟩
    cases s with
    | looking =>
      simp only [Job.next, Job.nextPendingWait, h.locked, hp]
      exact ⟨_, rfl⟩
    | checking | loading => exact ⟨_, rfl⟩

/-- a change gives its caller a cycle, and somebody waits for it -/
def handedOut : Services :=
  ofRequests (.granting [])
    [(.changing .acquiring, List.replicate 9 0), (.awaitingPending .looking, [])]
    ⟨.inl rfl, .inr (.inl rfl)⟩

theorem begins_handedOut (j : Job)
    (h : Cue.enter (.work 1 (.call (.shuttingDown .claiming))) = .enter j) :
    Job.Begins (handedOut.cells 11) j := by
  cases h
  have hlt : 1 < (handedOut.cells 11).cycles.length := by decide +kernel
  exact .inr (.inr (.inr (.inr ⟨1, _, hlt, .shutDown, rfl⟩)))

/-- then a caller shuts that cycle down, its promotion is given up, and its build ends -/
def marooned : Services :=
  (handedOut.cut 11 (.enter (.work 1 (.call (.shuttingDown .claiming)))) begins_handedOut).andThen
    12 (([4, 4, 2] ++ List.replicate 15 1 ++ [5, 5, 5]).map fun i => .move i false (.granting []))
    fun _ h _ => by
      obtain ⟨_, _, h⟩ := List.mem_map.mp h
      cases h

/-- nothing but the wait for the pending cycle is left -/
theorem blocked_marooned (i : Nat) (j : Job) (fired : Bool) (hi : marooned.proc? 33 i = some j)
    (hj : ∀ s, j ≠ .awaitingPending s) : Job.next fired (marooned.cells 33) j = .blocked := by
  have hprocs : (marooned.run 33).procs =
      [.ended (.cycle 1), .work 1 (.genesis .ended), .ended .done, .awaitingPending .looking,
        .work 1 (.ended (.flag true)), .work 1 (.maintenance ⟨0, .ended .skipped⟩)] := rfl
  have hmem := List.mem_of_getElem? hi
  rw [hprocs] at hmem
  simp only [List.mem_cons, List.not_mem_nil, or_false] at hmem
  obtain rfl | rfl | rfl | rfl | rfl | rfl := hmem
  · rfl
  · rfl
  · rfl
  · exact absurd rfl (hj _)
  · rfl
  · rfl

theorem relay_idle : relay.Idle 20 := by
  intro i j fired hi hj
  have hprocs : (relay.run 20).procs =
      [.ended (.cycle 1), .work 1 (.genesis .ended), .ended .done] := rfl
  have hmem := List.mem_of_getElem? hi
  rw [hprocs] at hmem
  simp only [List.mem_cons, List.not_mem_nil, or_false] at hmem
  obtain rfl | rfl | rfl := hmem <;> rfl

/-- a promotion leaves the slot empty, and a cycle that its caller has shut down stays in it -/
theorem pending_settles_relay :
    relay.Idle 20 ∧ (relay.cells 20).service.pending = none ∧
    marooned.Idle 33 ∧ (marooned.cells 33).service.pending = some 1 ∧ marooned.Deserted 33 1 := by
  have hmarooned : marooned.Idle 33 := fun i j fired hi hj =>
    blocked_marooned i j fired hi fun s hs => by rw [hs] at hj; cases hj
  have hpend : (marooned.cells 33).service.pending = some 1 := rfl
  have hempty : (relay.cells 20).service.pending = none := by
    obtain ⟨_, ⟨hnone, _⟩ | ⟨k, hk, _⟩⟩ := pending_settles relay_idle
    · exact hnone
    · cases hk
  have hdeserted : marooned.Deserted 33 1 := by
    obtain ⟨_, ⟨hnone, _⟩ | ⟨k, hk, h⟩⟩ := pending_settles hmarooned
    · cases hnone
    · cases hpend.symm.trans hk
      exact h
  exact ⟨relay_idle, hempty, hmarooned, hpend, hdeserted⟩

/-- when nothing can go on the slot need not be empty -/
theorem not_settled_when_idle :
    ¬ ∀ (E : Services) (t : Nat),
      (∀ i j fired, E.proc? t i = some j → (∀ s, j ≠ .awaitingPending s) →
        Job.next fired (E.cells t) j = .blocked) →
      (E.cells t).service.pending = none := by
  intro h
  have hnone := h marooned 33 blocked_marooned
  cases hnone

end Execution

end IndexCoordinator
