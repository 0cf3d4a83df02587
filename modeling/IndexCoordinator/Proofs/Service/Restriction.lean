import IndexCoordinator.Proofs.Cycle.Builder
import IndexCoordinator.Proofs.Service.Succession

/-!
# A service, seen from one of its cycles

For one cycle a service is a crowd of callers: a change submits its build, whoever takes it out of a
slot shuts it down, and lookups come to it when it is current.  So every run of a service holds a
run of each of its cycles, and what holds in all runs of one cycle holds for the cycles of a service.

* `Job.site?`            the cycle on which a job works where it stands, and how;
* `Job.Local`            what one move of a job is to a cycle, with `Job.Moves.local`;
* `Run.Restricts`        a run of a cycle that a run of a service holds;
* `Run.Follows`          what happens in it when something happens under the service;
* `Execution.Restriction`, `Execution.Tracing`   an execution of a cycle that an execution of a service
                         holds, the second with the answers of the collaborators;
* `Execution.exists_tracing`       every cycle has one.
-/

namespace IndexCoordinator

namespace Job

/-- the cycle on which a job works where it stands, and how -/
def site? : Job → Option (Nat × Work)
  | .work i w => some (i, w)
  | .changing (.submitting next s) => some (next, .call (.submitting s))
  | .changing (.superseding _ old s) => some (old, .call (.shuttingDown s))
  | .promoting _ (.retiring previous s) => some (previous, .call (.shuttingDown s))
  | .closing (.abandoning old s) => some (old, .call (.shuttingDown s))
  | .closing (.retiring current s) => some (current, .call (.shuttingDown s))
  | _ => none

/-- the work of a job on one cycle -/
def on? (k : Nat) (j : Job) : Option Work :=
  j.site?.bind fun x => if x.1 = k then some x.2 else none

theorem on?_eq_some {k : Nat} {j : Job} {x : Work} : j.on? k = some x ↔ j.site? = some (k, x) := by
  unfold on?
  obtain h | ⟨⟨i, y⟩, h⟩ := Option.eq_none_or_eq_some j.site?
  · simp [h]
  · simp [h]

theorem on?_of_site_none {k : Nat} {j : Job} (h : j.site? = none) : j.on? k = none := by
  simp [on?, h]

theorem on?_of_site {k i : Nat} {j : Job} {x : Work} (h : j.site? = some (i, x)) :
    j.on? k = if i = k then some x else none := by
  simp [on?, h]

theorem filterMap_on?_work (k i : Nat) (l : List Work) :
    (l.map (Job.work i)).filterMap (on? k) = if i = k then l else [] := by
  induction l with
  | nil => simp
  | cons x l ih =>
    rw [List.map_cons, List.filterMap_cons, on?_of_site rfl, ih]
    by_cases e : i = k
    · simp only [if_pos e]
    · simp only [if_neg e]

/-- what a move of a job is to the cycle at a position: nothing, a new call, or a move; where a call
of a collaborator ends, it is that of the job -/
inductive Local (fired : Bool) (answer : Answering) (k : Nat) (c : Cycle) (j : Job)
    (q : Progress Coordinator Job) : Prop where
  | aside : q.shared.cycle? k = some c → q.self.on? k = j.on? k →
      q.spawned.filterMap (on? k) = [] → Local fired answer k c j q
  | comes {call : CycleCall} : q.shared.cycle? k = some c → j.on? k = none → call.Fresh →
      q.self.on? k = some (.call call) → q.spawned.filterMap (on? k) = [] →
      Local fired answer k c j q
  | moves {x : Work} {fired' : Bool} {answer' : Answering} {p : Progress Cycle Work} :
      j.on? k = some x → (x.next fired' c).under answer' = some p →
      q.shared.cycle? k = some p.shared →
      q.self.on? k = some p.self ∨ q.self.on? k = none ∧ (∃ r, p.self = .ended r) →
      q.spawned.filterMap (on? k) = p.spawned →
      (∀ req resume, x.next fired' c = .call req resume →
        j = .work k x ∧ fired' = fired ∧ answer' = answer) →
      Local fired answer k c j q

theorem IsLookup.fresh {call : CycleCall} (h : IsLookup call) : call.Fresh := by
  unfold IsLookup at h
  split at h
  · exact .awaitConfiguration
  · exact .require _
  · exact .findTask _
  · exact .update _ _
  · exact .resetHints
  · exact h.elim

section
variable {fired : Bool} {answer : Answering} {w w' : Coordinator} {j : Job}
  {q : Progress Coordinator Job} {k i : Nat} {c : Cycle}

theorem local_of_none (hc : q.shared.cycle? k = some c) (hj : j.site? = none)
    (hq : q.self.site? = none) (hs : q.spawned = []) : Local fired answer k c j q :=
  .aside hc ((on?_of_site_none hq).trans (on?_of_site_none hj).symm) (by rw [hs]; rfl)

theorem local_of_call {call : CycleCall} (hc : q.shared.cycle? k = some c) (hj : j.site? = none)
    (hq : q.self.site? = some (i, .call call)) (hcall : call.Fresh) (hs : q.spawned = []) :
    Local fired answer k c j q := by
  have hon := on?_of_site (k := k) hq
  by_cases e : i = k
  · rw [if_pos e] at hon
    exact .comes hc (on?_of_site_none hj) hcall hon (by rw [hs]; rfl)
  · rw [if_neg e] at hon
    exact .aside hc (hon.trans (on?_of_site_none hj).symm) (by rw [hs]; rfl)

theorem next_ne_call {call : CycleCall}
    (h : (∃ s, call = .submitting s) ∨ ∃ s, call = .shuttingDown s) {fired : Bool} {req : Request}
    {resume : Outcome req.Answer → Progress Cycle Work} :
    Work.next fired c (.call call) ≠ .call req resume := by
  obtain ⟨s, rfl⟩ | ⟨s, rfl⟩ := h
  · simp only [Work.next, CycleCall.next]
    rcases s.next c with ⟨c', s' | _ | _⟩ <;> exact fun h => by cases h
  · simp only [Work.next, CycleCall.next]
    rcases s.next c.lifecycle with ⟨l, s' | won⟩ <;> exact fun h => by cases h

theorem next_of_shuts (fired : Bool) (answer : Answering) {c' : Cycle} {s : Shutdown}
    {again : Option Shutdown} (h : c.Shuts s c' again) :
    ∃ x : Work, (Work.next fired c (.call (.shuttingDown s))).under answer
        = some { shared := c', self := x } ∧
      (∀ s', again = some s' → x = .call (.shuttingDown s')) ∧
      (again = none → ∃ r, x = .ended r) := by
  cases h with
  | claim hs =>
    have hs' : c.lifecycle.shutdownPerformed = false := hs
    refine ⟨.call (.shuttingDown .cancelling), ?_, fun s' h => ?_, fun h => by cases h⟩
    · simp only [Work.next, CycleCall.next, Shutdown.next, hs']
      rfl
    · cases h
      rfl
  | lose hs =>
    have hs' : c.lifecycle.shutdownPerformed = true := hs
    refine ⟨.ended (.flag false), ?_, (fun _ h => by cases h), fun _ => ⟨_, rfl⟩⟩
    simp only [Work.next, CycleCall.next, Shutdown.next, hs']
    rfl
  | cancel => exact ⟨.ended (.flag true), rfl, (fun _ h => by cases h), fun _ => ⟨_, rfl⟩⟩

theorem local_of_shuts {s : Shutdown} {again : Option Shutdown} (h : w.Shuts i s w' again)
    (hc : w.cycle? k = some c) (hw : q.shared = w')
    (hj : j.site? = some (i, .call (.shuttingDown s)))
    (hq : q.self.site? = again.map fun s' => (i, .call (.shuttingDown s')))
    (hs : q.spawned = []) : Local fired answer k c j q := by
  have hspawned : q.spawned.filterMap (on? k) = [] := by rw [hs]; rfl
  by_cases e : i = k
  · subst e
    cases h with
    | missing hnone => cases hnone.symm.trans hc
    | found hi hshut =>
      obtain rfl := Option.some.inj (hi.symm.trans hc)
      obtain ⟨x, hx, hgo, hstop⟩ := next_of_shuts false (.granting []) hshut
      refine .moves (on?_eq_some.mpr hj) hx (hw ▸ Coordinator.cycle?_setCycle_self hi _) ?_
        hspawned fun _ _ h => absurd h (next_ne_call (.inr ⟨s, rfl⟩))
      cases again with
      | some s' =>
        left
        rw [hgo s' rfl]
        exact on?_eq_some.mpr hq
      | none => exact .inr ⟨on?_of_site_none hq, hstop rfl⟩
  · have hsame : w'.cycle? k = some c := by
      cases h with
      | missing => exact hc
      | found hi _ => exact (w.cycle?_setCycle_ne _ e).trans hc
    have hnone : j.on? k = none := by rw [on?_of_site hj, if_neg e]
    refine .aside (hw ▸ hsame) (Eq.trans ?_ hnone.symm) hspawned
    cases again with
    | some s' => rw [on?_of_site hq, if_neg e]
    | none => exact on?_of_site_none hq

theorem Moves.local (h : Moves fired answer w j q) (hc : w.cycle? k = some c)
    (hlookup : ∀ call, j = .loading call → IsLookup call) : Local fired answer k c j q := by
  cases h with
  | @work i x c₀ p hi hp =>
    by_cases e : i = k
    · subst e
      obtain rfl : c₀ = c := Option.some.inj (hi.symm.trans hc)
      refine .moves (on?_eq_some.mpr rfl) hp (Coordinator.cycle?_setCycle_self hi _)
        (.inl (on?_eq_some.mpr rfl)) ?_ fun _ _ _ => ⟨rfl, rfl, rfl⟩
      show (p.spawned.map (Job.work i)).filterMap (on? i) = p.spawned
      rw [filterMap_on?_work, if_pos rfl]
    · refine .aside ((w.cycle?_setCycle_ne _ e).trans hc) ?_ ?_
      · show (Job.work i p.self).on? k = (Job.work i x).on? k
        rw [on?_of_site rfl, on?_of_site rfl, if_neg e, if_neg e]
      · show (p.spawned.map (Job.work i)).filterMap (on? k) = []
        rw [filterMap_on?_work, if_neg e]
  | acquire _ h =>
    unfold afterLock at h
    split at h <;> cases h <;> exact local_of_none hc rfl rfl rfl
  | release h =>
    unfold afterUnlock at h
    split at h <;> cases h <;> exact local_of_none hc rfl rfl rfl
  | create =>
    have hlt : k < w.cycles.length := (List.getElem?_eq_some_iff.mp hc).1
    refine .aside ((List.getElem?_append_left hlt).trans hc) ?_ rfl
    rw [on?_of_site rfl, if_neg (Nat.ne_of_gt hlt)]
    rfl
  | @submit next s s' c₀ c' hi hs =>
    by_cases e : next = k
    · subst e
      obtain rfl : c₀ = c := Option.some.inj (hi.symm.trans hc)
      have hmove : (Work.next false c₀ (.call (.submitting s))).under (.granting [])
          = some { shared := c', self := .call (.submitting s') } := by
        simp only [Work.next, CycleCall.next, hs]
        rfl
      exact .moves (on?_eq_some.mpr rfl) hmove (Coordinator.cycle?_setCycle_self hi c')
        (.inl (on?_eq_some.mpr rfl)) rfl fun _ _ h => absurd h (next_ne_call (.inl ⟨s, rfl⟩))
    · refine .aside ((w.cycle?_setCycle_ne _ e).trans hc) ?_ rfl
      rw [on?_of_site rfl, on?_of_site rfl, if_neg e, if_neg e]
  | @submitted next s c₀ c' started hi hs =>
    by_cases e : next = k
    · subst e
      obtain rfl : c₀ = c := Option.some.inj (hi.symm.trans hc)
      have hmove : (Work.next false c₀ (.call (.submitting s))).under (.granting [])
          = some { shared := c', self := .ended .done,
                   spawned := if started then [.genesis .spawned] else [] } := by
        simp only [Work.next, CycleCall.next, hs]
        cases started <;> rfl
      refine .moves (on?_eq_some.mpr rfl) hmove (Coordinator.cycle?_setCycle_self hi c')
        (.inr ⟨rfl, _, rfl⟩) ?_ fun _ _ h => absurd h (next_ne_call (.inl ⟨s, rfl⟩))
      cases started
      · rfl
      · exact (filterMap_on?_work next next [.genesis .spawned]).trans (if_pos rfl)
    · refine .aside ((w.cycle?_setCycle_ne _ e).trans hc) ?_ ?_
      · rw [on?_of_site_none rfl, on?_of_site rfl, if_neg e]
      · cases started
        · rfl
        · exact (filterMap_on?_work k next [.genesis .spawned]).trans (if_neg e)
  | replace => exact local_of_call hc rfl rfl .shutDown rfl
  | swap => exact local_of_call hc rfl rfl .shutDown rfl
  | drop => exact local_of_call hc rfl rfl .shutDown rfl
  | load => exact local_of_call hc rfl rfl .shutDown rfl
  | lookUp => exact local_of_call hc rfl rfl (hlookup _ rfl).fresh rfl
  | supersede h | retire h | abandon h | stop h => exact local_of_shuts h hc rfl rfl rfl rfl
  | superseded h | retired h | dropped h | stopped h => exact local_of_shuts h hc rfl rfl rfl rfl
  | spawn => exact .aside hc rfl rfl
  | _ => exact local_of_none hc rfl rfl rfl

theorem Moves.creates (h : Moves fired answer w j q) (hnone : w.cycle? k = none)
    (hc : q.shared.cycle? k = some c) :
    c = .ofGeneration w.settings (w.service.clock.issued + 1) ∧ k = w.cycles.length ∧
      q.self = .changing (.submitting k .claiming) ∧ q.spawned = [] := by
  have hset {i : Nat} {c' : Cycle} {P : Prop} (h : (w.setCycle i c').cycle? k = some c) : P := by
    have hlt := (List.getElem?_eq_some_iff.mp h).1
    rw [w.length_setCycle i c'] at hlt
    have hge := List.getElem?_eq_none_iff.mp hnone
    omega
  have hshut {i : Nat} {s : Shutdown} {again : Option Shutdown} {w' : Coordinator} {P : Prop}
      (h : w.Shuts i s w' again) (hc : w'.cycle? k = some c) : P := by
    have hlt := (List.getElem?_eq_some_iff.mp hc).1
    rw [h.aside.length] at hlt
    have hge := List.getElem?_eq_none_iff.mp hnone
    omega
  cases h with
  | create =>
    obtain hc | ⟨rfl, rfl⟩ := Coordinator.cycle?_issue hc
    · cases hnone.symm.trans hc
    · exact ⟨rfl, rfl, rfl, rfl⟩
  | work | submit | submitted => exact hset hc
  | supersede h | superseded h | retire h | retired h | abandon h | dropped h | stop h
  | stopped h => exact hshut h hc
  | _ => cases hnone.symm.trans hc

theorem Moves.length_le (h : Moves fired answer w j q) :
    w.cycles.length ≤ q.shared.cycles.length := by
  by_contra hlt
  have hlast : q.shared.cycles.length < w.cycles.length := by omega
  obtain ⟨c', hc', _⟩ := h.keeps.cycle _ _ (List.getElem?_eq_getElem hlast)
  exact Nat.lt_irrefl _ (List.getElem?_eq_some_iff.mp hc').1

theorem Moves.site (h : Moves fired answer w j q) (ho : w.Ordered)
    (hj : ∀ i x, j.site? = some (i, x) → i < w.cycles.length) :
    ∀ y ∈ q.self :: q.spawned, ∀ i x, y.site? = some (i, x) → i < q.shared.cycles.length := by
  intro y hy i x hsite
  have hle := h.length_le
  have hold {m : Nat} (hm : m < w.cycles.length) : m < q.shared.cycles.length :=
    Nat.lt_of_lt_of_le hm hle
  obtain rfl | hy := List.mem_cons.mp hy
  · cases h with
    | acquire _ h =>
      unfold afterLock at h
      split at h <;> cases h <;> cases hsite
    | release h =>
      unfold afterUnlock at h
      split at h <;> cases h <;> cases hsite
    | work | submit | supersede | retire | abandon | stop =>
      cases hsite
      exact hold (hj _ _ rfl)
    | create =>
      cases hsite
      show w.cycles.length < (w.cycles ++ [_]).length
      rw [List.length_append]
      exact Nat.lt_succ_self _
    | replace hp | drop hp =>
      cases hsite
      exact (ho.pending _ hp).2
    | swap | load | lookUp =>
      cases hsite
      exact ho.current
    | _ => cases hsite
  · cases h with
    | work =>
      obtain ⟨z, _, rfl⟩ := List.mem_map.mp hy
      cases hsite
      exact hold (hj _ _ rfl)
    | submitted =>
      split at hy
      · obtain rfl := List.mem_singleton.mp hy
        cases hsite
        exact hold (hj _ _ rfl)
      · cases hy
    | spawn =>
      obtain rfl := List.mem_singleton.mp hy
      cases hsite
    | _ => cases hy

theorem Moves.lookup (h : Moves fired answer w j q) {call : CycleCall} :
    q.self ≠ .lookingUp call ∧ (q.self = .loading call → j = .lookingUp call) := by
  cases h with
  | acquire _ h =>
    unfold afterLock at h
    split at h <;> cases h <;> exact ⟨nofun, nofun⟩
  | release h =>
    unfold afterUnlock at h
    split at h <;> cases h <;> exact ⟨nofun, nofun⟩
  | passOn =>
    refine ⟨nofun, fun hq => ?_⟩
    cases hq
    rfl
  | _ => exact ⟨nofun, nofun⟩

/-- work on a cycle was there before and has made a move of its own, or it is a call that has just got
the current cycle -/
theorem Moves.of_work (h : Moves fired answer w j q) {x : Work} (hq : q.self = .work k x) :
    (∃ x' c p, j = .work k x' ∧ w.cycle? k = some c ∧ (x'.next fired c).under answer = some p ∧
      p.self = x) ∨
    ∃ call, j = .loading call ∧ x = .call call := by
  cases h with
  | work hc hp =>
    obtain ⟨rfl, hx⟩ := Job.work.inj hq
    exact .inl ⟨_, _, _, rfl, hc, hp, hx⟩
  | acquire _ h =>
    unfold afterLock at h
    split at h <;> cases h <;> cases hq
  | release h =>
    unfold afterUnlock at h
    split at h <;> cases h <;> cases hq
  | lookUp =>
    cases hq
    exact .inr ⟨_, rfl, rfl⟩
  | _ => cases hq

end

end Job

namespace Run

/-- a run of a cycle that a run of a service holds: the cycle, all work on it, and calls that have
ended -/
structure Restricts (k : Nat) (R : Run Coordinator Job) (r : Run Cycle Work) : Prop where
  shared : R.shared.cycle? k = some r.shared
  procs : ∃ rest, r.procs.Perm (R.procs.filterMap (Job.on? k) ++ rest) ∧
    ∀ x ∈ rest, ∃ reply, x = .ended reply

variable {k : Nat} {R : Run Coordinator Job} {r : Run Cycle Work}

theorem Restricts.mem (h : Restricts k R r) {j : Job} {x : Work} (hj : j ∈ R.procs)
    (hx : j.on? k = some x) : x ∈ r.procs := by
  obtain ⟨rest, hp, _⟩ := h.procs
  exact hp.mem_iff.mpr (List.mem_append_left _ (List.mem_filterMap.mpr ⟨j, hj, hx⟩))

theorem Restricts.exists_job (h : Restricts k R r) {x : Work} (hx : x ∈ r.procs)
    (hreply : x.reply? = none) : ∃ j ∈ R.procs, j.on? k = some x := by
  obtain ⟨rest, hp, hrest⟩ := h.procs
  obtain hx | hx := List.mem_append.mp (hp.mem_iff.mp hx)
  · exact List.mem_filterMap.mp hx
  · obtain ⟨reply, rfl⟩ := hrest x hx
    cases hreply

/-- what happens in a run of the cycle when something happens under the service: who comes in may
do so, and a call of a collaborator ends as it does under the service -/
structure Follows (k : Nat) (R : Run Coordinator Job) (cue : Cue Job) (r : Run Cycle Work)
    (cue' : Cue Work) : Prop where
  enters : ∀ w, cue' = .enter w → Work.Begins r.shared w
  calls : ∀ i' fired answer x req resume, cue' = .move i' fired answer → r.procs[i']? = some x →
    Work.next fired r.shared x = .call req resume →
    ∃ i, cue = .move i fired answer ∧ R.procs[i]? = some (.work k x)

theorem follows_rest {cue : Cue Job} : Follows k R cue r .rest :=
  ⟨fun _ h => (by cases h), fun _ _ _ _ _ _ h => (by cases h)⟩

theorem follows_enter {cue : Cue Job} {call : CycleCall} (h : call.Fresh) :
    Follows k R cue r (.enter (.call call)) := by
  refine ⟨fun w hw => ?_, fun _ _ _ _ _ _ h => (by cases h)⟩
  cases hw
  exact ⟨call, h, rfl⟩

/-- **A move under the service is nothing, a new call, or a move in the run of the cycle.** -/
theorem Restricts.commit (h : Restricts k R r) {i : Nat} {j : Job} {fired : Bool}
    {answer : Answering} {q : Progress Coordinator Job} (hj : R.procs[i]? = some j)
    (hl : Job.Local fired answer k r.shared j q) :
    ∃ cue, Follows k R (.move i fired answer) r cue ∧
      Restricts k (R.commit i q) (r.follow Work.next cue) := by
  obtain ⟨rest, hprocs, hrest⟩ := h.procs
  obtain ⟨others, hp, hp'⟩ := exists_others hj
  have hbefore := hp.filterMap (Job.on? k)
  have hafter := (hp' q).filterMap (Job.on? k)
  cases hl with
  | aside hc hon hspawned =>
    refine ⟨.rest, follows_rest, hc, rest,
      hprocs.trans (List.Perm.append_right _ (hbefore.trans ?_)), hrest⟩
    refine List.Perm.trans ?_ hafter.symm
    rw [← List.cons_append, List.filterMap_append, hspawned, List.append_nil,
      List.filterMap_cons, List.filterMap_cons, hon]
  | @comes call hc hon hcall hself hspawned =>
    refine ⟨.enter (.call call), follows_enter hcall, hc, rest, ?_, hrest⟩
    rw [List.filterMap_cons_none hon] at hbefore
    rw [← List.cons_append, List.filterMap_append, hspawned, List.append_nil,
      List.filterMap_cons_some hself] at hafter
    show (r.procs ++ [Work.call call]).Perm _
    calc (r.procs ++ [Work.call call]).Perm (.call call :: r.procs) :=
          List.perm_append_singleton _ _
      _ |>.Perm (.call call :: (others.filterMap (Job.on? k) ++ rest)) :=
          ((hprocs.trans (hbefore.append_right rest))).cons _
      _ |>.Perm ((R.commit i q).procs.filterMap (Job.on? k) ++ rest) :=
          (hafter.append_right rest).symm
  | @moves x fired' answer' p hon hp₁ hc hself hspawned hown =>
    obtain ⟨i', hi'⟩ := List.getElem?_of_mem (h.mem (List.mem_of_getElem? hj) hon)
    obtain ⟨others', ho, ho'⟩ := exists_others hi'
    rw [List.filterMap_cons_some hon] at hbefore
    rw [← List.cons_append, List.filterMap_append, hspawned] at hafter
    have hothers : others'.Perm (others.filterMap (Job.on? k) ++ rest) :=
      (ho.symm.trans (hprocs.trans (hbefore.append_right rest))).cons_inv
    have hcommit := (ho' p).trans ((hothers.append_right p.spawned).cons p.self)
    refine ⟨.move i' fired' answer', ⟨fun _ h => (by cases h),
      fun n fired₁ answer₁ x₁ req resume hcue hx hn => ?_⟩, ?_⟩
    · cases hcue
      obtain rfl : x = x₁ := Option.some.inj (hi'.symm.trans hx)
      obtain ⟨rfl, rfl, rfl⟩ := hown req resume hn
      exact ⟨i, rfl, hj⟩
    rw [follow_move hi' hp₁]
    refine ⟨hc, ?_⟩
    obtain hself | ⟨hself, hended⟩ := hself
    · rw [List.filterMap_cons_some hself] at hafter
      refine ⟨rest, hcommit.trans (List.Perm.trans ?_ (hafter.append_right rest).symm), hrest⟩
      rw [List.append_assoc, List.cons_append, List.cons_append, List.append_assoc]
      exact (List.perm_append_comm.append_left _).cons _
    · rw [List.filterMap_cons_none hself] at hafter
      refine ⟨p.self :: rest, hcommit.trans
        (List.Perm.trans ?_ (hafter.append_right (p.self :: rest)).symm), ?_⟩
      · refine List.Perm.trans (List.Perm.cons _ ?_) List.perm_middle.symm
        rw [List.append_assoc, List.append_assoc]
        exact List.perm_append_comm.append_left _
      · intro y hy
        obtain rfl | hy := List.mem_cons.mp hy
        · exact hended
        · exact hrest y hy

/-- jobs are on cycles that are there, and only lookups are passed on to the current one -/
structure Sited (R : Run Coordinator Job) : Prop where
  site : ∀ j ∈ R.procs, ∀ i x, j.site? = some (i, x) → i < R.shared.cycles.length
  lookup : ∀ call, .lookingUp call ∈ R.procs ∨ .loading call ∈ R.procs → Job.IsLookup call

theorem Sited.step {R' : Run Coordinator Job} (h : R.Sited) (ho : R.Orderly)
    (hst : Step Job.next R R') : R'.Sited := by
  obtain ⟨i, j, fired, answer, q, hj, hq, rfl⟩ := hst.exists_under
  have hm := Job.moves_of_next hq
  have hmem := List.mem_of_getElem? hj
  have hspawned {call : CycleCall} {y : Job} (hy : y ∈ q.spawned)
      (he : y = .lookingUp call ∨ y = .loading call) : Job.IsLookup call := by
    obtain ⟨_, _, rfl⟩ | ⟨_, _, rfl⟩ | ⟨_, rfl⟩ := hm.spawned y hy <;>
      obtain he | he := he <;> cases he
  refine ⟨fun y hy n x hsite => ?_, fun call hcall => ?_⟩
  · obtain hy | hy := mem_of_commit hy
    · exact hm.site ho.ordered (h.site j hmem) y hy n x hsite
    · exact Nat.lt_of_lt_of_le (h.site y hy n x hsite) hm.length_le
  · obtain hcall | hcall := hcall
    · obtain hy | hy := mem_of_commit hcall
      · obtain hy | hy := List.mem_cons.mp hy
        · exact absurd hy.symm hm.lookup.1
        · exact hspawned hy (.inl rfl)
      · exact h.lookup call (.inl hy)
    · obtain hy | hy := mem_of_commit hcall
      · obtain hy | hy := List.mem_cons.mp hy
        · exact h.lookup call (.inl (hm.lookup.2 hy.symm ▸ hmem))
        · exact hspawned hy (.inr rfl)
      · exact h.lookup call (.inr hy)

abbrev OfService (R : Run Coordinator Job) : Prop :=
  Reachable Job.next Job.Begins (fun w => ∃ settings, w = .start settings) R

theorem Reachable.sited (h : R.OfService) : R.Sited := by
  induction h with
  | start hs =>
    exact ⟨fun _ hj => absurd hj List.not_mem_nil,
      fun _ hcall => hcall.elim (absurd · List.not_mem_nil) (absurd · List.not_mem_nil)⟩
  | @invoke R j _ hj ih =>
    refine ⟨fun y hy n x hsite => ?_, fun call hcall => ?_⟩
    · obtain hy | hy := List.mem_append.mp hy
      · exact ih.site y hy n x hsite
      · obtain rfl := List.mem_singleton.mp hy
        obtain rfl | rfl | rfl | ⟨_, _, rfl⟩ | ⟨i, _, hi, _, rfl⟩ := hj <;> cases hsite
        exact hi
    · have hnew (hy : Job.lookingUp call = j ∨ Job.loading call = j) : Job.IsLookup call := by
        obtain rfl | rfl | rfl | ⟨_, hk, rfl⟩ | ⟨_, _, _, _, rfl⟩ := hj <;>
          obtain hy | hy := hy <;> cases hy
        exact hk
      obtain hcall | hcall := hcall
      · obtain hy | hy := List.mem_append.mp hcall
        · exact ih.lookup call (.inl hy)
        · exact hnew (.inl (List.mem_singleton.mp hy))
      · obtain hy | hy := List.mem_append.mp hcall
        · exact ih.lookup call (.inr hy)
        · exact hnew (.inr (List.mem_singleton.mp hy))
  | step hR hst ih => exact ih.step (Reachable.orderly hR) hst

theorem Restricts.invoke (h : Restricts k R r) {j : Job} (hj : Job.Begins R.shared j)
    {cue : Cue Job} :
    ∃ cue', Follows k R cue r cue' ∧ Restricts k (R.invoke j) (r.follow Work.next cue') := by
  obtain ⟨rest, hp, hrest⟩ := h.procs
  have hprocs : (R.invoke j).procs.filterMap (Job.on? k)
      = R.procs.filterMap (Job.on? k) ++ [j].filterMap (Job.on? k) := List.filterMap_append
  obtain hon | ⟨call, hcall, hon⟩ : j.on? k = none ∨
      ∃ call : CycleCall, call.Fresh ∧ j.on? k = some (.call call) := by
    obtain rfl | rfl | rfl | ⟨_, _, rfl⟩ | ⟨i, call, _, hcall, rfl⟩ := hj
    · exact .inl rfl
    · exact .inl rfl
    · exact .inl rfl
    · exact .inl rfl
    · by_cases e : i = k
      · exact .inr ⟨call, hcall, by rw [Job.on?_of_site rfl, if_pos e]⟩
      · exact .inl (by rw [Job.on?_of_site rfl, if_neg e])
  · refine ⟨.rest, follows_rest, h.shared, rest, ?_, hrest⟩
    rw [hprocs, List.filterMap_cons_none hon, List.filterMap_nil, List.append_nil]
    exact hp
  · refine ⟨.enter (.call call), follows_enter hcall, h.shared, rest, ?_, hrest⟩
    rw [hprocs, List.filterMap_cons_some hon, List.filterMap_nil, List.append_assoc]
    refine (hp.append_right [Work.call call]).trans ?_
    rw [List.append_assoc]
    exact List.perm_append_comm.append_left _

/-- where a change makes a cycle, the run of the cycle begins with its submission -/
theorem restricts_of_new {R' : Run Coordinator Job} (hs : R.Sited) (hst : Step Job.next R R')
    (hnone : R.shared.cycle? k = none) {c : Cycle} (hc : R'.shared.cycle? k = some c) :
    (∃ settings generation, c = .ofGeneration settings generation) ∧
      Restricts k R' (Run.invoke ⟨c, [], []⟩ (.call (.submitting .claiming))) := by
  obtain ⟨i, j, fired, answer, q, hj, hq, rfl⟩ := hst.exists_under
  obtain ⟨rfl, rfl, hself, hspawned⟩ := (Job.moves_of_next hq).creates hnone hc
  obtain ⟨others, hp, hp'⟩ := exists_others hj
  -- nobody has worked on the cycle yet
  have hnobody : others.filterMap (Job.on? R.shared.cycles.length) = [] := by
    refine List.filterMap_eq_nil_iff.mpr fun y hy => ?_
    cases hon : y.on? R.shared.cycles.length with
    | none => rfl
    | some x =>
      have hmem := hp.mem_iff.mpr (List.mem_cons_of_mem _ hy)
      exact absurd (hs.site y hmem _ x (Job.on?_eq_some.mp hon)) (Nat.lt_irrefl _)
  have hon : q.self.on? R.shared.cycles.length = some (.call (.submitting .claiming)) := by
    rw [hself]
    exact Job.on?_eq_some.mpr rfl
  refine ⟨⟨_, _, rfl⟩, hc, [], ?_, fun _ hx => absurd hx List.not_mem_nil⟩
  have hafter := (hp' q).filterMap (Job.on? R.shared.cycles.length)
  rw [hspawned, List.append_nil, List.filterMap_cons_some hon, hnobody] at hafter
  rw [List.append_nil]
  exact hafter.symm

end Run

namespace Execution

/-- an execution of one cycle in which all is there, in the same order, that is there of a cycle of a
service up to a moment -/
structure Restriction (E : Services) (k t : Nat) (F : Builds) (σ : Nat → Nat) : Prop where
  monotone : ∀ u v, u ≤ v → σ u ≤ σ v
  restricts : ∀ u, u ≤ t → ∀ c, (E.cells u).cycle? k = some c →
    Run.Restricts k (E.run u) (F.run (σ u))

/-- a call of some work on a cycle of a service has ended with an answer before a moment -/
def AnsweredOn (E : Services) (t k : Nat) (req : Request) (a : Outcome req.Answer) : Prop :=
  ∃ u i x, u < t ∧ E.proc? u i = some (.work k x) ∧ E.CallEnds u i req a

/-- an execution of one cycle that has besides no other answers of the collaborators than the cycle
of the service had -/
structure Tracing (E : Services) (k t : Nat) (F : Builds) (σ : Nat → Nat) : Prop
    extends E.Restriction k t F σ where
  answered : ∀ i req a, F.Answered (σ t) i req a → E.AnsweredOn t k req a

variable {E : Services} {k t u : Nat} {c : Cycle} {F : Builds} {σ : Nat → Nat}

theorem Restriction.cells (h : E.Restriction k t F σ) (hu : u ≤ t)
    (hc : (E.cells u).cycle? k = some c) : F.cells (σ u) = c :=
  Option.some.inj ((h.restricts u hu c hc).shared.symm.trans hc)

theorem Restriction.exists_proc (h : E.Restriction k t F σ) (hu : u ≤ t)
    (hc : (E.cells u).cycle? k = some c) {i : Nat} {x : Work}
    (hi : E.proc? u i = some (.work k x)) : ∃ i', F.proc? (σ u) i' = some x :=
  List.getElem?_of_mem
    ((h.restricts u hu c hc).mem (List.mem_of_getElem? hi) (Job.on?_eq_some.mpr rfl))

theorem follows_succ {r : Run Cycle Work} (h : Run.Restricts k (E.run t) r) :
    ∃ cue, Run.Follows k (E.run t) (E.cue t) r cue ∧
      Run.Restricts k (E.run (t + 1)) (r.follow Work.next cue) := by
  obtain he | ⟨j, _, hj, he⟩ | ⟨i, j, fired, answer, q, hm⟩ := tick (E := E) t
  · exact ⟨.rest, Run.follows_rest, he ▸ h⟩
  · rw [he]
    exact h.invoke hj
  · rw [hm.cue, hm.run]
    have hsited := Run.Reachable.sited (E.reachable t)
    exact h.commit hm.proc (hm.job.local h.shared fun call hcall =>
      hsited.lookup call (.inr (hcall ▸ List.mem_of_getElem? hm.proc)))

theorem AnsweredOn.mono {req : Request} {a : Outcome req.Answer} (h : E.AnsweredOn t k req a)
    (htu : t ≤ u) : E.AnsweredOn u k req a := by
  obtain ⟨v, i, x, hv, h⟩ := h
  exact ⟨v, i, x, Nat.lt_of_lt_of_le hv htu, h⟩

theorem answeredOn_of_follows {r : Run Cycle Work} {cue : Cue Work} (hr : Run.Restricts k (E.run t) r)
    (h : Run.Follows k (E.run t) (E.cue t) r cue) {i : Nat} {fired : Bool} {answer : Answering}
    {x : Work} {req : Request} {resume : Outcome req.Answer → Progress Cycle Work}
    (hcue : cue = .move i fired answer) (hx : r.procs[i]? = some x)
    (hn : Work.next fired r.shared x = .call req resume) :
    E.AnsweredOn (t + 1) k req (answer req) := by
  obtain ⟨i', hcue', hi'⟩ := h.calls i fired answer x req resume hcue hx hn
  refine ⟨t, i', x, Nat.lt_succ_self t, hi', _, fired, answer,
    fun a => (resume a).map ((E.cells t).setCycle k) (.work k), hi', hcue', ?_, rfl⟩
  have hc : (E.cells t).cycle? k = some r.shared := hr.shared
  simp only [Job.next, hc, hn, Move.map]

theorem Tracing.succ (h : E.Tracing k t F σ) (hc : (E.cells t).cycle? k = some c) :
    ∃ F' σ', E.Tracing k (t + 1) F' σ' := by
  have hr := h.restricts t (Nat.le_refl t) c hc
  obtain ⟨cue, hfollows, hafter⟩ := follows_succ hr
  have henters : ∀ w, cue = .enter w → Work.Begins (F.cells (σ t)) w := hfollows.enters
  refine ⟨F.cut (σ t) cue henters, fun u => if u ≤ t then σ u else σ t + 1,
    ⟨fun u v huv => ?_, fun u hu c hc => ?_⟩, fun i req a ha => ?_⟩
  · by_cases hv : v ≤ t
    · simp only [if_pos hv, if_pos (Nat.le_trans huv hv)]
      exact h.monotone u v huv
    · simp only [if_neg hv]
      split
      · next hu => exact Nat.le_succ_of_le (h.monotone u t hu)
      · exact Nat.le_refl _
  · by_cases hut : u ≤ t
    · simp only [if_pos hut]
      rw [F.run_cut_le _ _ _ (h.monotone u t hut)]
      exact h.restricts u hut c hc
    · obtain rfl : u = t + 1 := by omega
      simp only [if_neg hut]
      rw [F.run_cut]
      exact hafter
  · rw [if_neg (Nat.not_succ_le_self t)] at ha
    obtain ⟨u, hu, x, fired, answer, resume, hx, hcue, hn, rfl⟩ := ha
    have hrun := F.run_cut_le (σ t) cue henters (Nat.le_of_lt_succ hu)
    unfold proc? at hx
    unfold cells at hn
    rw [hrun] at hx hn
    obtain hut | rfl := Nat.lt_or_eq_of_le (Nat.le_of_lt_succ hu)
    · rw [F.cue_cut_lt _ _ _ hut] at hcue
      exact (h.answered i req _ ⟨u, hut, x, fired, answer, resume, hx, hcue, hn, rfl⟩).mono
        (Nat.le_succ t)
    · rw [F.cue_cut] at hcue
      exact answeredOn_of_follows hr hfollows hcue hx hn

theorem tracing_start {settings : IndexingSettings} {generation : Nat}
    (hc : c = .ofGeneration settings generation) (hfirst : ∀ u, u < t → (E.cells u).cycle? k = none)
    (hr : Run.Restricts k (E.run t) ⟨c, [], []⟩ ∨
      Run.Restricts k (E.run t) (Run.invoke ⟨c, [], []⟩ (.call (.submitting .claiming)))) :
    ∃ F σ, E.Tracing k t F σ := by
  have hat {F : Builds} {n : Nat} (h : Run.Restricts k (E.run t) (F.run n))
      (hnone : ∀ i req a, ¬ F.Answered n i req a) : E.Tracing k t F fun _ => n := by
    refine ⟨⟨fun _ _ _ => Nat.le_refl n, fun u hu c hc => ?_⟩,
      fun i req a ha => absurd ha (hnone i req a)⟩
    obtain hu | rfl := Nat.lt_or_eq_of_le hu
    · cases (hfirst u hu).symm.trans hc
    · exact h
  let F : Builds := ⟨c, fun _ => .rest, ⟨settings, generation, hc⟩, fun _ _ h => by cases h⟩
  obtain hr | hr := hr
  · exact ⟨F, _, hat (n := 0) hr fun i req a ⟨u, hu, _⟩ => absurd hu (Nat.not_lt_zero u)⟩
  · let call : CycleCall := .submitting .claiming
    have hfollows : Run.Follows k (E.run t) (E.cue t) (F.run 0) (.enter (.call call)) :=
      Run.follows_enter .submit
    have henters : ∀ w, Cue.enter (.call call) = .enter w → Work.Begins (F.cells 0) w :=
      hfollows.enters
    refine ⟨F.cut 0 (.enter (.call call)) henters, _, hat (n := 1) ?_ ?_⟩
    · rw [F.run_cut]
      exact hr
    · rintro i req a ⟨u, hu, x, fired, answer, resume, _, hcue, _⟩
      obtain rfl : u = 0 := Nat.lt_one_iff.mp hu
      cases hcue

/-- **The cycles of a service are as cycles on their own are:** all that is there of one up to some
moment, and all that its collaborators have answered, is there in one execution of a new cycle with
callers. -/
theorem exists_tracing (hc : (E.cells t).cycle? k = some c) : ∃ F σ, E.Tracing k t F σ := by
  induction t generalizing c with
  | zero =>
    obtain ⟨settings, hs⟩ := E.isInitial
    have hfirst : E.run 0 = ⟨.start settings, [], []⟩ := by rw [run_zero, hs]
    have hc' : (Coordinator.start settings).cycle? k = some c := by
      rw [← hs]
      exact hc
    obtain ⟨rfl, hnew⟩ := Coordinator.cycle?_start hc'
    refine tracing_start hnew nofun (.inl ?_)
    rw [hfirst]
    exact ⟨hc', [], .refl _, fun _ hx => absurd hx List.not_mem_nil⟩
  | succ t ih =>
    obtain hnone | ⟨c₀, hc₀⟩ := Option.eq_none_or_eq_some ((E.cells t).cycle? k)
    · obtain hst | he | ⟨j, _, _, he⟩ := step_or (E := E) t
      · obtain ⟨⟨settings, generation, hnew⟩, hr⟩ :=
          Run.restricts_of_new (Run.Reachable.sited (E.reachable t)) hst hnone hc
        refine tracing_start hnew (fun u hu => ?_) (.inr hr)
        cases hu' : (E.cells u).cycle? k with
        | none => rfl
        | some x =>
          obtain ⟨_, hx, _⟩ := (keeps (Nat.le_of_lt_succ hu)).cycle k x hu'
          cases hnone.symm.trans hx
      · have hc' : (E.run (t + 1)).shared.cycle? k = some c := hc
        rw [he] at hc'
        cases hnone.symm.trans hc'
      · have hc' : (E.run (t + 1)).shared.cycle? k = some c := hc
        rw [he] at hc'
        cases hnone.symm.trans hc'
    · obtain ⟨F, σ, h⟩ := ih hc₀
      exact h.succ hc₀

theorem exists_restriction (hc : (E.cells t).cycle? k = some c) :
    ∃ F σ, E.Restriction k t F σ := by
  obtain ⟨F, σ, h⟩ := exists_tracing hc
  exact ⟨F, σ, h.toRestriction⟩

end Execution

end IndexCoordinator
