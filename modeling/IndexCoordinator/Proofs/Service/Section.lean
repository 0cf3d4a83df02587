import IndexCoordinator.Proofs.Service.Moves

/-!
# Sections under the lock of the pending slot

A change, a promotion and a shutdown of the service each do their work in one section under the
lock.  Inside a section the two slots and the flag pass through states that nobody sees who takes
the lock; `Coordinator.Section` says for every position in a section what holds there.

* `Coordinator.Ordered`    generations follow the positions, and the slots are in order; this holds
                           at every moment;
* `Coordinator.Retired`    every cycle out of the slots is shut down, but for one that the section
                           has in hand;
* `Job.Moves.section`      one move inside a section;
* `Run.Orderly`            what every reachable run keeps, with at most one process in a section.
-/

namespace IndexCoordinator

namespace Job

/-- whether a job stands in a section under the lock -/
def inside : Job → Bool
  | .changing .acquiring => false
  | .changing (.spawning _) => false
  | .changing _ => true
  | .promoting _ .waiting => false
  | .promoting _ .acquiring => false
  | .promoting _ _ => true
  | .closing .acquiring => false
  | .closing _ => true
  | _ => false

/-- the cycle that a section is about to put into a slot -/
def coming : Job → Option Nat
  | .changing (.submitting next _) => some next
  | .changing (.replacing next) => some next
  | .promoting next .swapping => some next
  | _ => none

/-- the cycle that a section has taken out of a slot and is about to shut down -/
def going : Job → Option Nat
  | .changing (.superseding _ old _) => some old
  | .promoting _ (.retiring previous _) => some previous
  | .closing (.abandoning old _) => some old
  | _ => none

def inHand (j : Job) : Option Nat := j.coming.or j.going

end Job

namespace Coordinator

def IsShut (w : Coordinator) (k : Nat) : Prop :=
  ∀ c, w.cycle? k = some c → c.isShutdownRequested = true

def IsBuilt (w : Coordinator) (k : Nat) : Prop :=
  ∃ c o, w.cycle? k = some c ∧ c.outcome.slot = some o

/-- generations follow the positions, and a pending cycle is younger than the current one -/
structure Ordered (w : Coordinator) : Prop where
  issued : w.service.clock.issued = w.cycles.length
  generation : ∀ k c, w.cycle? k = some c → c.generation = k + 1
  current : w.service.current < w.cycles.length
  pending : ∀ p, w.service.pending = some p → w.service.current < p ∧ p < w.cycles.length

/-- every cycle out of the slots is shut down, but for the one in hand -/
def Retired (w : Coordinator) (inHand : Option Nat) : Prop :=
  ∀ k, k ≠ w.service.current → w.service.pending ≠ some k → inHand ≠ some k → w.IsShut k

/-- a service that is shut down has no pending cycle, and its current one is shut down -/
def Closed (w : Coordinator) : Prop :=
  w.service.shutDown = true → w.service.pending = none ∧ w.IsShut w.service.current

/-- what a section has come to where a job stands in it -/
def Section (w : Coordinator) : Job → Prop
  | .changing .creating => w.service.shutDown = false
  | .changing (.submitting next _) | .changing (.replacing next) =>
    w.service.shutDown = false ∧ w.service.current < next ∧ next < w.cycles.length ∧
      ∀ p, w.service.pending = some p → p < next
  | .changing (.superseding next old s) =>
    w.service.shutDown = false ∧ w.service.pending = some next ∧ w.service.current < old ∧
      old < next ∧ (s = .cancelling → w.IsShut old)
  | .promoting next .swapping =>
    w.service.shutDown = false ∧ w.service.pending = none ∧ w.service.current < next ∧
      next < w.cycles.length
  | .promoting _ (.retiring previous s) =>
    w.service.shutDown = false ∧ w.service.pending = none ∧ previous < w.service.current ∧
      (s = .cancelling → w.IsShut previous)
  | .closing .taking => w.service.shutDown = true
  | .closing (.abandoning old s) =>
    w.service.shutDown = true ∧ w.service.pending = none ∧ (s = .cancelling → w.IsShut old)
  | .closing .loading => w.service.shutDown = true ∧ w.service.pending = none
  | .closing (.retiring current s) =>
    w.service.shutDown = true ∧ w.service.pending = none ∧ current = w.service.current ∧
      (s = .cancelling → w.IsShut current)
  | _ => w.Closed

section
variable {w w' : Coordinator}

theorem Aside.back (h : w.Aside w') {k : Nat} {c' : Cycle} (hc' : w'.cycle? k = some c') :
    ∃ c, w.cycle? k = some c ∧ c.Keeps c' := by
  obtain ⟨hk, _⟩ := List.getElem?_eq_some_iff.mp hc'
  rw [h.length] at hk
  have hc : w.cycle? k = some w.cycles[k] := List.getElem?_eq_getElem hk
  obtain ⟨c'', hc'', hkeep⟩ := h.cycle k _ hc
  obtain rfl : c'' = c' := Option.some.inj (hc''.symm.trans hc')
  exact ⟨_, hc, hkeep⟩

theorem Aside.isShut (h : w.Aside w') {k : Nat} (hs : w.IsShut k) : w'.IsShut k := by
  intro c' hc'
  obtain ⟨c, hc, hk⟩ := h.back hc'
  exact hk.shutdown (hs c hc)

theorem Keeps.isBuilt (h : w.Keeps w') {k : Nat} (hb : w.IsBuilt k) : w'.IsBuilt k := by
  obtain ⟨c, o, hc, ho⟩ := hb
  obtain ⟨c', hc', hk⟩ := h.cycle k c hc
  exact ⟨c', o, hc', hk.outcome o ho⟩

theorem Aside.ordered (h : w.Aside w') (ho : w.Ordered) : w'.Ordered where
  issued := by rw [h.service, h.length]; exact ho.issued
  generation k c' hc' := by
    obtain ⟨c, hc, hk⟩ := h.back hc'
    exact hk.generation.trans (ho.generation k c hc)
  current := by rw [h.service, h.length]; exact ho.current
  pending := by rw [h.service, h.length]; exact ho.pending

theorem Aside.retired (h : w.Aside w') {inHand : Option Nat} (hr : w.Retired inHand) :
    w'.Retired inHand := by
  intro k hcur hpend hhand
  rw [h.service] at hcur hpend
  exact h.isShut (hr k hcur hpend hhand)

theorem Aside.closed (h : w.Aside w') (hc : w.Closed) : w'.Closed := by
  intro hs
  rw [h.service] at hs ⊢
  exact ⟨(hc hs).1, h.isShut (hc hs).2⟩

theorem Aside.section (h : w.Aside w') {j : Job} (hs : w.Section j) : w'.Section j := by
  have hcancel {s : Shutdown} {k : Nat} (hx : s = .cancelling → w.IsShut k) :
      s = .cancelling → w'.IsShut k := fun e => h.isShut (hx e)
  unfold Section at hs ⊢
  rw [h.service, h.length]
  split at hs
  · exact hs
  · exact hs
  · exact hs
  · obtain ⟨h1, h2, h3, h4, h5⟩ := hs
    exact ⟨h1, h2, h3, h4, hcancel h5⟩
  · exact hs
  · obtain ⟨h1, h2, h3, h4⟩ := hs
    exact ⟨h1, h2, h3, hcancel h4⟩
  · exact hs
  · obtain ⟨h1, h2, h3⟩ := hs
    exact ⟨h1, h2, hcancel h3⟩
  · exact hs
  · obtain ⟨h1, h2, h3, h4⟩ := hs
    exact ⟨h1, h2, h3, hcancel h4⟩
  · exact h.closed hs

theorem Shuts.isShut {i : Nat} {s : Shutdown} {again : Option Shutdown} (h : w.Shuts i s w' again)
    (hc : s = .cancelling → w.IsShut i) : w'.IsShut i := by
  intro x hx
  cases h with
  | missing hnone =>
    rw [hnone] at hx
    cases hx
  | found hi hs =>
    have hx' := Option.some.inj ((cycle?_setCycle_self hi _).symm.trans hx)
    cases hs with
    | claim => exact hx' ▸ rfl
    | lose h => exact hx' ▸ h
    | cancel =>
      have h := hc rfl _ hi
      exact hx' ▸ h

theorem Closed.all_shut (hc : w.Closed) (hr : w.Retired none) (hs : w.service.shutDown = true) :
    w.service.pending = none ∧ ∀ c ∈ w.cycles, c.isShutdownRequested = true := by
  obtain ⟨hnone, hcur⟩ := hc hs
  refine ⟨hnone, fun c hc => ?_⟩
  obtain ⟨k, hk⟩ := List.getElem?_of_mem hc
  by_cases e : k = w.service.current
  · exact hcur c (e ▸ hk)
  · refine hr k e ?_ (fun h => by cases h) c hk
    rw [hnone]
    exact fun h => by cases h

theorem Retired.shed {k : Nat} (h : w.Retired (some k)) (hk : w.IsShut k) : w.Retired none := by
  intro i hcur hpend _
  by_cases e : i = k
  · exact e ▸ hk
  · exact h i hcur hpend fun h => e (Option.some.inj h).symm

theorem cycle?_issue {k : Nat} {c : Cycle} (h : w.issue.cycle? k = some c) :
    w.cycle? k = some c ∨
      k = w.cycles.length ∧ c = .ofGeneration w.settings (w.service.clock.issued + 1) := by
  have h' : (w.cycles ++ [Cycle.ofGeneration w.settings (w.service.clock.issued + 1)])[k]?
      = some c := h
  rw [List.getElem?_append] at h'
  split at h'
  · exact .inl h'
  · obtain ⟨hk, hc⟩ := List.getElem?_eq_some_iff.mp h'
    simp only [List.length_singleton] at hk
    simp only [List.getElem_singleton] at hc
    exact .inr ⟨by omega, hc.symm⟩

theorem cycle?_start {settings : IndexingSettings} {k : Nat} {c : Cycle}
    (h : (start settings).cycle? k = some c) : k = 0 ∧ c = .ofGeneration settings 1 := by
  cases k with
  | zero => exact ⟨rfl, (Option.some.inj h).symm⟩
  | succ k => cases h

theorem closed_of_open (h : w.service.shutDown = false) : w.Closed := by
  intro hs
  rw [h] at hs
  cases hs

end

end Coordinator

namespace Job

section
variable {fired : Bool} {answer : Answering} {w : Coordinator} {j : Job}
  {q : Progress Coordinator Job}

theorem entering {j' : Job} (h : j.afterLock = some j') :
    j.inside = false ∧ j'.inside = true ∧ j'.inHand = none ∧ (w.Closed → w.Section j') := by
  unfold afterLock at h
  split at h <;> cases h <;> exact ⟨rfl, rfl, rfl, id⟩

theorem leaving {j' : Job} (h : j.afterUnlock = some j') :
    j.inside = true ∧ j'.inside = false ∧ j.inHand = none ∧ (w.Section j → w.Closed) := by
  unfold afterUnlock at h
  split at h <;> cases h <;> exact ⟨rfl, rfl, rfl, id⟩

theorem Moves.section (h : Moves fired answer w j q) (hj : j.inside = true)
    (hq : q.self.inside = true) (ho : w.Ordered) (hr : w.Retired j.inHand) (hs : w.Section j) :
    q.shared.Retired q.self.inHand ∧ q.shared.Section q.self := by
  cases h with
  | refuse | yield | pass | enter | disposed | panic => exact ⟨hr, hs⟩
  | permit h => exact ⟨hr, h⟩
  | create =>
    refine ⟨fun k hk hp hn c hc => ?_, hs, ho.current, by simp [Coordinator.issue], fun p hp => ?_⟩
    · obtain hc | ⟨rfl, _⟩ := Coordinator.cycle?_issue hc
      · exact hr k hk hp (fun h => by cases h) c hc
      · exact absurd rfl hn
    · exact (ho.pending p hp).2
  | submit hc h | submitted hc h =>
    have ha := Coordinator.aside_setCycle hc (Submission.keeps h).1
    exact ⟨ha.retired hr, ha.section hs⟩
  | replace hp =>
    obtain ⟨hopen, hcur, hlen, hpend⟩ := hs
    refine ⟨fun k hk hn hold => hr k hk (fun h => hold ?_) hn, ?_⟩
    · exact hp.symm.trans h
    · exact ⟨hopen, rfl, (ho.pending _ hp).1, hpend _ hp, fun h => by cases h⟩
  | install hp =>
    refine ⟨fun k hk hn _ => hr k hk (fun h => ?_) hn, Coordinator.closed_of_open hs.1⟩
    rw [hp] at h
    cases h
  | supersede h =>
    obtain ⟨hopen, hpend, hcur, hold, hc⟩ := hs
    have he := h.aside.service
    exact ⟨h.aside.retired hr, he ▸ hopen, he ▸ hpend, he ▸ hcur, hold, fun _ => h.isShut hc⟩
  | superseded h =>
    obtain ⟨hopen, hpend, hcur, hold, hc⟩ := hs
    have he := h.aside.service
    exact ⟨(h.aside.retired hr).shed (h.isShut hc), Coordinator.closed_of_open (he ▸ hopen)⟩
  | take hp =>
    have hopen : w.service.shutDown = false := by
      by_contra h
      have hnone := (hs (by simpa using h)).1
      rw [hp] at hnone
      cases hnone
    refine ⟨fun k hk _ hn => hr k hk (fun h => hn ?_) (fun h => by cases h), ?_⟩
    · exact hp.symm.trans h
    · exact ⟨hopen, rfl, ho.pending _ hp⟩
  | swap =>
    obtain ⟨hopen, hpend, hcur, hlen⟩ := hs
    refine ⟨fun k hk _ hn => hr k (fun h => hn (h ▸ rfl)) ?_ (fun h => hk ?_), ?_⟩
    · rw [hpend]
      exact fun h => by cases h
    · exact (Option.some.inj h).symm
    · exact ⟨hopen, hpend, hcur, fun h => by cases h⟩
  | retire h =>
    obtain ⟨hopen, hpend, hprev, hc⟩ := hs
    have he := h.aside.service
    exact ⟨h.aside.retired hr, he ▸ hopen, he ▸ hpend, he ▸ hprev, fun _ => h.isShut hc⟩
  | retired h =>
    obtain ⟨hopen, hpend, hprev, hc⟩ := hs
    have he := h.aside.service
    exact ⟨(h.aside.retired hr).shed (h.isShut hc), Coordinator.closed_of_open (he ▸ hopen)⟩
  | close => exact ⟨hr, rfl⟩
  | drop hp =>
    refine ⟨fun k hk _ hn => hr k hk (fun h => hn ?_) (fun h => by cases h), ?_⟩
    · exact hp.symm.trans h
    · exact ⟨hs, rfl, fun h => by cases h⟩
  | clear hp =>
    refine ⟨fun k hk _ hn => hr k hk ?_ hn, hs, rfl⟩
    rw [hp]
    exact fun h => by cases h
  | abandon h =>
    obtain ⟨hshut, hpend, hc⟩ := hs
    have he := h.aside.service
    exact ⟨h.aside.retired hr, he ▸ hshut, he ▸ hpend, fun _ => h.isShut hc⟩
  | dropped h =>
    obtain ⟨hshut, hpend, hc⟩ := hs
    have he := h.aside.service
    exact ⟨(h.aside.retired hr).shed (h.isShut hc), he ▸ hshut, he ▸ hpend⟩
  | load =>
    obtain ⟨hshut, hpend⟩ := hs
    exact ⟨hr, hshut, hpend, rfl, fun h => by cases h⟩
  | stop h =>
    obtain ⟨hshut, hpend, hcur, hc⟩ := hs
    have he := h.aside.service
    exact ⟨h.aside.retired hr, he ▸ hshut, he ▸ hpend, he ▸ hcur, fun _ => h.isShut hc⟩
  | stopped h =>
    obtain ⟨hshut, hpend, rfl, hc⟩ := hs
    have he := h.aside.service
    exact ⟨h.aside.retired hr, fun _ => ⟨he ▸ hpend, he ▸ h.isShut hc⟩⟩
  | work | spawn | built | abandoned | settled | cancelled | late | ready | answer | reject
  | passOn | lookUp => cases hj
  | acquire _ h =>
    have hout := (entering (w := w) h).1
    rw [hj] at hout
    cases hout
  | release h =>
    have hout := (leaving (w := w) h).2.1
    rw [hout] at hq
    cases hq

theorem Moves.ordered (h : Moves fired answer w j q) (ho : w.Ordered)
    (hs : j.inside = true → w.Section j) : q.shared.Ordered := by
  have hnone {p : Nat} {P : Prop} (h : (none : Option Nat) = some p) : P := by cases h
  cases h with
  | work hc hq => exact (Coordinator.aside_setCycle hc (Work.of_next hq).1.keeps).ordered ho
  | submit hc h | submitted hc h =>
    exact (Coordinator.aside_setCycle hc (Submission.keeps h).1).ordered ho
  | supersede h | superseded h | retire h | retired h | abandon h | dropped h | stop h
  | stopped h => exact h.aside.ordered ho
  | create =>
    have hlen : w.issue.cycles.length = w.cycles.length + 1 := List.length_append
    refine ⟨?_, fun k c hc => ?_, ?_, fun p hp => ?_⟩
    · rw [hlen, ← ho.issued]
      rfl
    · obtain hc | ⟨rfl, rfl⟩ := Coordinator.cycle?_issue hc
      · exact ho.generation k c hc
      · rw [ho.issued]
        rfl
    · rw [hlen]
      exact Nat.lt_succ_of_lt ho.current
    · obtain ⟨hcur, hp⟩ := ho.pending p hp
      rw [hlen]
      exact ⟨hcur, Nat.lt_succ_of_lt hp⟩
  | replace | install =>
    obtain ⟨_, hcur, hlen, _⟩ := hs rfl
    refine ⟨ho.issued, ho.generation, ho.current, fun p hp => ?_⟩
    obtain rfl := Option.some.inj hp
    exact ⟨hcur, hlen⟩
  | swap =>
    obtain ⟨_, hpend, _, hlen⟩ := hs rfl
    refine ⟨ho.issued, ho.generation, hlen, fun p hp => ?_⟩
    exact hnone (hpend.symm.trans hp)
  | take | drop | clear => exact ⟨ho.issued, ho.generation, ho.current, fun _ h => hnone h⟩
  | _ => exact ⟨ho.issued, ho.generation, ho.current, ho.pending⟩

/-- what a move has to do with the lock: the job stays out of the sections, goes into one, goes on
in one, or leaves one -/
theorem Moves.lock (h : Moves fired answer w j q) :
    (j.inside = false ∧ q.self.inside = false ∧ w.Aside q.shared) ∨
    (j.afterLock = some q.self ∧ w.service.locked = false ∧ q.shared = Job.lock w) ∨
    (j.inside = true ∧ q.self.inside = true ∧
      q.shared.service.locked = w.service.locked) ∨
    (j.afterUnlock = some q.self ∧ q.shared = unlock w) := by
  cases h with
  | work hc hq => exact .inl ⟨rfl, rfl, Coordinator.aside_setCycle hc (Work.of_next hq).1.keeps⟩
  | acquire hl h => exact .inr (.inl ⟨h, hl, rfl⟩)
  | release h => exact .inr (.inr (.inr ⟨h, rfl⟩))
  | spawn | built | abandoned | settled | cancelled | late | ready | answer | reject | passOn
  | lookUp => exact .inl ⟨rfl, rfl, .refl w⟩
  | supersede h | superseded h | retire h | retired h | abandon h | dropped h | stop h
  | stopped h => exact .inr (.inr (.inl ⟨rfl, rfl, by rw [h.aside.service]⟩))
  | _ => exact .inr (.inr (.inl ⟨rfl, rfl, rfl⟩))

/-- what a job starts: builds, maintenance tasks and promotions, all outside the sections -/
theorem Moves.spawned (h : Moves fired answer w j q) :
    ∀ x ∈ q.spawned, (∃ i g, x = .work i (.genesis g)) ∨ (∃ i m, x = .work i (.maintenance m)) ∨
      ∃ next, x = .promoting next .waiting := by
  intro x hx
  cases h with
  | work hc hq =>
    obtain ⟨k, hk, rfl⟩ := List.mem_map.mp hx
    obtain rfl | ⟨m, rfl⟩ := (Work.of_next hq).2.spawned k hk
    · exact .inl ⟨_, _, rfl⟩
    · exact .inr (.inl ⟨_, _, rfl⟩)
  | submitted hc h =>
    split at hx
    · exact .inl ⟨_, _, List.mem_singleton.mp hx⟩
    · cases hx
  | spawn => exact .inr (.inr ⟨_, List.mem_singleton.mp hx⟩)
  | _ => cases hx

theorem Moves.built_of_promoting (h : Moves fired answer w j q) {next : Nat} {s : Promotion}
    (hq : q.self = .promoting next s) (hs : s ≠ .waiting)
    (hj : ∀ s', j = .promoting next s' → s' ≠ .waiting → w.IsBuilt next) : w.IsBuilt next := by
  cases h with
  | built hc ho =>
    cases hq
    exact ⟨_, _, hc, ho⟩
  | acquire _ h =>
    unfold afterLock at h
    split at h <;> cases h <;> cases hq
    exact hj _ rfl (fun h => by cases h)
  | release h =>
    unfold afterUnlock at h
    split at h <;> cases h <;> cases hq
  | take | pass | swap | retire | retired =>
    cases hq
    exact hj _ rfl (fun h => by cases h)
  | _ => cases hq

end

end Job

namespace Coordinator

/-- the jobs inside sections are at most one, which holds the lock; without one the slots are as
everyone may see them -/
inductive Guard (w : Coordinator) : List Job → Prop where
  | free : w.service.locked = false → w.Retired none → w.Closed → Guard w []
  | held {j : Job} : w.service.locked = true → w.Retired j.inHand → w.Section j → Guard w [j]

theorem Guard.perm {w : Coordinator} {l l' : List Job} (h : w.Guard l) (hp : l.Perm l') :
    w.Guard l' := by
  cases h with
  | free hl hr hc =>
    rw [← hp.nil_eq]
    exact .free hl hr hc
  | held hl hr hs =>
    rw [← hp.singleton_eq]
    exact .held hl hr hs

theorem Aside.guard {w w' : Coordinator} (h : w.Aside w') {l : List Job} (hg : w.Guard l) :
    w'.Guard l := by
  cases hg with
  | free hl hr hc => exact .free (h.service ▸ hl) (h.retired hr) (h.closed hc)
  | held hl hr hs => exact .held (h.service ▸ hl) (h.retired hr) (h.section hs)

end Coordinator

namespace Job

section
variable {fired : Bool} {answer : Answering} {w : Coordinator} {j : Job}
  {q : Progress Coordinator Job}

/-- **One move under the lock.**  Whoever else is in a section keeps the others out. -/
theorem Moves.guard (h : Moves fired answer w j q) (ho : w.Ordered) {others : List Job}
    (hg : w.Guard ((j :: others).filter inside)) :
    q.shared.Guard ((q.self :: others).filter inside) := by
  obtain ⟨hj, hq, ha⟩ | ⟨hlock, hl, hw⟩ | ⟨hj, hq, hl⟩ | ⟨hunlock, hw⟩ := h.lock
  · rw [List.filter_cons_of_neg (by simp [hj])] at hg
    rw [List.filter_cons_of_neg (by simp [hq])]
    exact ha.guard hg
  · obtain ⟨hj, hq, hin, hs⟩ := entering (w := Job.lock w) hlock
    rw [List.filter_cons_of_neg (by simp [hj])] at hg
    rw [List.filter_cons_of_pos hq, hw]
    generalize others.filter inside = l at hg
    cases hg with
    | free _ hr hc => exact .held rfl (hin ▸ hr) (hs hc)
    | held hl' _ _ =>
      rw [hl] at hl'
      cases hl'
  · rw [List.filter_cons_of_pos hj] at hg
    rw [List.filter_cons_of_pos hq]
    generalize others.filter inside = l at hg
    cases hg with
    | held hl' hr hs =>
      obtain ⟨hr', hs'⟩ := h.section hj hq ho hr hs
      exact .held (hl.trans hl') hr' hs'
  · obtain ⟨hj, hq, hin, hs⟩ := leaving (w := w) hunlock
    rw [List.filter_cons_of_pos hj] at hg
    rw [List.filter_cons_of_neg (by simp [hq]), hw]
    generalize others.filter inside = l at hg
    cases hg with
    | held _ hr hc => exact .free rfl (hin ▸ hr) (hs hc)

theorem Begins.inside (h : Begins w j) : j.inside = false := by
  obtain rfl | rfl | rfl | ⟨k, _, rfl⟩ | ⟨i, k, _, _, rfl⟩ := h <;> rfl

end

end Job

namespace Run

/-- what every reachable run of jobs keeps -/
structure Orderly (r : Run Coordinator Job) : Prop where
  ordered : r.shared.Ordered
  guard : r.shared.Guard (r.procs.filter Job.inside)
  built : ∀ next s, .promoting next s ∈ r.procs → s ≠ .waiting → r.shared.IsBuilt next

theorem Orderly.of_inside {r : Run Coordinator Job} (h : r.Orderly) {j : Job} (hj : j ∈ r.procs)
    (hin : j.inside = true) : r.shared.Retired j.inHand ∧ r.shared.Section j := by
  have hmem : j ∈ r.procs.filter Job.inside := List.mem_filter.mpr ⟨hj, hin⟩
  have hg := h.guard
  generalize r.procs.filter Job.inside = l at hg hmem
  cases hg with
  | free => cases hmem
  | held _ hr hs =>
    obtain rfl := List.mem_singleton.mp hmem
    exact ⟨hr, hs⟩

theorem Orderly.section {r : Run Coordinator Job} (h : r.Orderly) {j : Job} (hj : j ∈ r.procs)
    (hin : j.inside = true) : r.shared.Section j := (h.of_inside hj hin).2

theorem Orderly.sole {r : Run Coordinator Job} (h : r.Orderly) {j j' : Job} (hj : j ∈ r.procs)
    (hj' : j' ∈ r.procs) (hin : j.inside = true) (hin' : j'.inside = true) :
    j = j' ∧ r.shared.service.locked = true := by
  have hmem : j ∈ r.procs.filter Job.inside := List.mem_filter.mpr ⟨hj, hin⟩
  have hmem' : j' ∈ r.procs.filter Job.inside := List.mem_filter.mpr ⟨hj', hin'⟩
  have hg := h.guard
  generalize r.procs.filter Job.inside = l at hg hmem hmem'
  cases hg with
  | free => cases hmem
  | held hl _ _ =>
    exact ⟨(List.mem_singleton.mp hmem).trans (List.mem_singleton.mp hmem').symm, hl⟩

theorem Orderly.countP_inside {r : Run Coordinator Job} (h : r.Orderly) :
    r.procs.countP Job.inside = if r.shared.service.locked then 1 else 0 := by
  have hg := h.guard
  rw [List.countP_eq_length_filter]
  generalize r.procs.filter Job.inside = l at hg
  cases hg with
  | free hl => simp [hl]
  | held hl => simp [hl]

theorem Orderly.of_free {r : Run Coordinator Job} (h : r.Orderly)
    (hl : r.shared.service.locked = false) :
    r.shared.Retired none ∧ r.shared.Closed ∧ ∀ j ∈ r.procs, j.inside = false := by
  have hg := h.guard
  generalize hlist : r.procs.filter Job.inside = l at hg
  cases hg with
  | free _ hr hc =>
    have hnone := List.filter_eq_nil_iff.mp hlist
    exact ⟨hr, hc, fun j hj => Bool.not_eq_true _ ▸ hnone j hj⟩
  | held hl' _ _ =>
    rw [hl] at hl'
    cases hl'

theorem Orderly.step {r r' : Run Coordinator Job} (h : r.Orderly) (hst : Step Job.next r r') :
    r'.Orderly := by
  obtain ⟨i, j, fired, answer, q, hj, hq, rfl⟩ := hst.exists_under
  have hm := Job.moves_of_next hq
  have hmem := List.mem_of_getElem? hj
  obtain ⟨others, hp, hp'⟩ := exists_others hj
  have hspawned : q.spawned.filter Job.inside = [] := by
    refine List.filter_eq_nil_iff.mpr fun x hx => ?_
    obtain ⟨i, g, rfl⟩ | ⟨i, m, rfl⟩ | ⟨next, rfl⟩ := hm.spawned x hx <;>
      exact Bool.false_ne_true
  have hfilter : ((r.commit i q).procs.filter Job.inside).Perm
      ((q.self :: others).filter Job.inside) := by
    have h := (hp' q).filter Job.inside
    rwa [← List.cons_append, List.filter_append, hspawned, List.append_nil] at h
  refine ⟨hm.ordered h.ordered (h.section hmem), ?_, fun next s hx hs => ?_⟩
  · exact (hm.guard h.ordered (h.guard.perm (hp.filter Job.inside))).perm hfilter.symm
  · refine hm.keeps.isBuilt ?_
    obtain hx | hx := List.mem_cons.mp ((hp' q).mem_iff.mp hx)
    · exact hm.built_of_promoting hx.symm hs fun s' hj hs' => h.built next s' (hj ▸ hmem) hs'
    · obtain hx | hx := List.mem_append.mp hx
      · exact h.built next s (hp.mem_iff.mpr (List.mem_cons_of_mem _ hx)) hs
      · obtain ⟨i, g, hx⟩ | ⟨i, m, hx⟩ | ⟨next, hx⟩ := hm.spawned _ hx <;> cases hx
        exact absurd rfl hs

theorem orderly_start (settings : IndexingSettings) :
    Orderly ⟨Coordinator.start settings, [], []⟩ := by
  refine ⟨⟨rfl, fun k c hc => ?_, Nat.one_pos, fun p h => by cases h⟩,
    .free rfl (fun k hk _ _ c hc => ?_) (fun h => by cases h),
    fun _ _ hx => absurd hx List.not_mem_nil⟩
  · obtain ⟨rfl, rfl⟩ := Coordinator.cycle?_start hc
    rfl
  · exact absurd (Coordinator.cycle?_start hc).1 hk

theorem Reachable.orderly {r : Run Coordinator Job}
    (h : Reachable Job.next Job.Begins (fun w => ∃ settings, w = .start settings) r) :
    r.Orderly := by
  refine h.invariant (fun w hw => ?_) (fun r j hr hj => ?_) (fun r r' hr hst => hr.step hst)
  · obtain ⟨settings, rfl⟩ := hw
    exact orderly_start settings
  · refine ⟨hr.ordered, ?_, fun next s hx hs => ?_⟩
    · rw [procs_invoke, List.filter_append, List.filter_cons_of_neg (by simp [hj.inside]),
        List.filter_nil, List.append_nil]
      exact hr.guard
    · obtain hx | hx := List.mem_append.mp hx
      · exact hr.built next s hx hs
      · obtain rfl := List.mem_singleton.mp hx
        obtain h | h | h | ⟨k, _, h⟩ | ⟨i, k, _, _, h⟩ := hj <;> cases h

end Run

end IndexCoordinator
