import IndexCoordinator.Proofs.Cycle.Coherence
import IndexCoordinator.Proofs.Cycle.Updates
import IndexCoordinator.Proofs.Service.Waiting

/-!
# Updates through the service

An update goes to the cycle that is current when it gets there, and stays on it to its end.  On one
cycle no two updates are inside storage for the same document of an index.  Two cycles do not know of
each other's documents in flight: what is left is that a promotion lies between the two updates.

* `Job.Updates`                   where an update stands, with the task that it has found;
* `Execution.Comes.updates`       so it is for every call that comes in to update documents;
* `Execution.Passing`             a process is inside a pass over a document on a cycle;
* `Execution.passing_alone`       on one cycle it is alone there;
* `Execution.passes_apart`        two passes at once are on two cycles, with a promotion between.
-/

namespace IndexCoordinator

namespace Job

/-- where a job stands that updates documents of an index, with the task that it has found -/
def Updates (index : IndexId) (w : Coordinator) : Job → Prop
  | .lookingUp call => ∃ documents, call = .locating index documents
  | .loading call => ∃ documents, call = .locating index documents
  | .work k x => ∃ c, w.cycle? k = some c ∧ x.Updates index c
  | .ended _ => True
  | _ => False

def isPassing (k : Nat) (id : IndexId) (d : DocumentId) : Job → Bool
  | .work i (.call (.updating b _)) => i == k && b.index == id && b.isIndexing d
  | _ => false

theorem exists_of_isPassing {j : Job} {k : Nat} {id : IndexId} {d : DocumentId}
    (h : j.isPassing k id d = true) :
    ∃ b success, j = .work k (.call (.updating b success)) ∧ b.index = id ∧
      b.isIndexing d = true := by
  unfold isPassing at h
  split at h
  · simp only [Bool.and_eq_true, beq_iff_eq] at h
    obtain ⟨⟨rfl, rfl⟩, hd⟩ := h
    exact ⟨_, _, rfl, rfl, hd⟩
  · cases h

section
variable {fired : Bool} {answer : Answering} {w w' : Coordinator} {j : Job}
  {q : Progress Coordinator Job} {index : IndexId}

theorem Updates.mono (h : j.Updates index w)
    (hw : ∀ k c, w.cycle? k = some c → ∃ c', w'.cycle? k = some c' ∧ c.KeepsRegistry c') :
    j.Updates index w' := by
  unfold Updates at h ⊢
  split at h
  · exact h
  · exact h
  · obtain ⟨c, hc, hx⟩ := h
    obtain ⟨c', hc', hkeep⟩ := hw _ c hc
    exact ⟨c', hc', hx.mono hkeep⟩
  · trivial
  · exact h.elim

theorem Updates.step (h : j.Updates index w) (hm : Moves fired answer w j q) (ho : w.Ordered) :
    q.self.Updates index q.shared := by
  cases hm with
  | @work i x c p hc hp =>
    obtain ⟨c', hc', hx⟩ := h
    obtain rfl : c = c' := Option.some.inj (hc.symm.trans hc')
    exact ⟨p.shared, Coordinator.cycle?_setCycle_self hc _, hx.step (Work.moves_of_next hp)⟩
  | passOn => exact h
  | reject => trivial
  | lookUp =>
    obtain ⟨documents, rfl⟩ := h
    obtain ⟨c, hc⟩ := ho.exists_current
    exact ⟨c, hc, rfl⟩
  | acquire _ hj =>
    unfold afterLock at hj
    split at hj <;> first | exact h.elim | cases hj
  | release hj =>
    unfold afterUnlock at hj
    split at hj <;> first | exact h.elim | cases hj
  | _ => exact h.elim

end

end Job

namespace Run

variable {k : Nat} {R : Run Coordinator Job} {r : Run Cycle Work}

theorem Restricts.countP_le (h : Restricts k R r) (p : Work → Bool) :
    R.procs.countP (fun j => ((j.on? k).map p).getD false) ≤ r.procs.countP p := by
  obtain ⟨rest, hprocs, _⟩ := h.procs
  rw [hprocs.countP_eq, List.countP_append, List.countP_filterMap]
  exact Nat.le_add_right _ _

end Run

namespace Execution

section
variable (E : Services)

/-- process `i` comes in to update documents of an index, through the service or on a cycle -/
inductive Comes (i : Nat) (index : IndexId) : Prop where
  | service {s : Nat} {documents : List UnsavedDocument} :
      E.Enters s i (.lookingUp (.locating index documents)) → Comes i index
  | cycle {s k : Nat} {documents : List UnsavedDocument} :
      E.Enters s i (.work k (.call (.locating index documents))) → Comes i index

/-- process `i` is inside a pass over a document for an index, on cycle `k` -/
def Passing (t i k : Nat) (id : IndexId) (d : DocumentId) : Prop :=
  (E.proc? t i).any (Job.isPassing k id d) = true

end

variable {E : Services} {s t u i j k : Nat} {index index' id : IndexId} {d : DocumentId}

theorem Passing.exists_batch (h : E.Passing t i k id d) :
    ∃ b success, E.proc? t i = some (.work k (.call (.updating b success))) ∧ b.index = id ∧
      b.isIndexing d = true := by
  obtain ⟨j, hj, hpass⟩ := (Option.any_eq_true _ _).mp h
  obtain ⟨b, success, rfl, hb⟩ := Job.exists_of_isPassing hpass
  exact ⟨b, success, hj, hb⟩

theorem cycle_keepsRegistry {c : Cycle} (h : t ≤ u) (hc : (E.cells t).cycle? k = some c) :
    ∃ c', (E.cells u).cycle? k = some c' ∧ c.KeepsRegistry c' := by
  obtain ⟨c', hc', _⟩ := (keeps h).cycle k c hc
  obtain ⟨F, σ, hF⟩ := exists_restriction hc'
  refine ⟨c', hc', ?_⟩
  rw [← hF.cells h hc, ← hF.cells (Nat.le_refl u) hc']
  exact keepsRegistry (hF.monotone t u h)

theorem Enters.updates_on {j₀ : Job} (h : E.Enters s i j₀) (h₀ : j₀.Updates index (E.cells s))
    (hst : s < t) : ∃ j, E.proc? t i = some j ∧ j.Updates index (E.cells t) := by
  have hmono {v : Nat} {j : Job} (hj : j.Updates index (E.cells v)) :
      j.Updates index (E.cells (v + 1)) :=
    hj.mono fun _ _ => cycle_keepsRegistry (Nat.le_succ v)
  induction t, hst using Nat.le_induction with
  | base => exact ⟨_, h.proc_succ, hmono h₀⟩
  | succ t hst ih =>
    obtain ⟨j, hj, hupdates⟩ := ih
    obtain hj' | ⟨fired, answer, q, hm⟩ := Execution.proc_succ hj
    · exact ⟨j, hj', hmono hupdates⟩
    · refine ⟨q.self, hm.self_succ, ?_⟩
      rw [hm.cells_succ]
      exact hupdates.step hm.job (orderly t).ordered

theorem Comes.updates (h : E.Comes i index) {j : Job} (hj : E.proc? t i = some j) :
    j.Updates index (E.cells t) := by
  have hback {s : Nat} {j₀ : Job} (he : E.Enters s i j₀) (h₀ : j₀.Updates index (E.cells s)) :
      j.Updates index (E.cells t) := by
    obtain ⟨j', hj', hupdates⟩ := he.updates_on h₀ (he.lt_of_proc hj)
    obtain rfl : j' = j := Option.some.inj (hj'.symm.trans hj)
    exact hupdates
  cases h with
  | service he => exact hback he ⟨_, rfl⟩
  | cycle he =>
    obtain hb | hb | hb | ⟨_, _, hb⟩ | ⟨n, call, hn, _, hb⟩ := E.mayEnter _ _ he.1 <;> cases hb
    exact hback he ⟨_, List.getElem?_eq_getElem hn, rfl⟩

theorem Comes.passes (h : E.Comes i index) (hi : E.Passing t i k id d) :
    (∃ c, (E.cells t).cycle? k = some c) ∧
    ∃ w, E.proc? t i = some (.work k w) ∧ w.passes id d = true := by
  obtain ⟨b, success, hproc, rfl, hd⟩ := hi.exists_batch
  obtain ⟨c, hc, hsound, _⟩ := h.updates hproc
  refine ⟨⟨c, hc⟩, _, hproc, ?_⟩
  have hbatch : (Work.call (.updating b success)).batch? b.index = some b := if_pos rfl
  unfold Work.passes
  rw [hbatch]
  exact hsound.passes hd

/-- **No two updates on one cycle are inside storage for the same document of an index.** -/
theorem passing_alone (hij : i ≠ j) (hi : E.Comes i index) (hj : E.Comes j index')
    (hpi : E.Passing t i k id d) : ¬ E.Passing t j k id d := by
  intro hpj
  obtain ⟨⟨c, hc⟩, w, hw, hpw⟩ := hi.passes hpi
  obtain ⟨_, w', hw', hpw'⟩ := hj.passes hpj
  obtain ⟨F, σ, hF⟩ := exists_restriction hc
  have hle := (hF.restricts t (Nat.le_refl t) c hc).countP_le (Work.passes id d)
  have hone : (F.run (σ t)).procs.countP (Work.passes id d) ≤ 1 := by
    refine ((F.reachable (σ t)).tallies (fun c hc => ?_) id).countP_passes d
    obtain ⟨settings, generation, rfl⟩ := hc
    rfl
  have hon {w : Work} (h : w.passes id d = true) :
      (((Job.work k w).on? k).map (Work.passes id d)).getD false = true := by
    rw [Job.on?_eq_some.mpr rfl]
    exact h
  have htwo : 2 ≤ (E.run t).procs.countP
      fun j => ((j.on? k).map (Work.passes id d)).getD false := by
    obtain hlt | hlt := Nat.lt_or_gt_of_ne hij
    · exact two_le_countP hlt hw hw' (hon hpw) (hon hpw')
    · exact two_le_countP hlt hw' hw (hon hpw') (hon hpw)
  omega

theorem exists_promotes_between (htu : t ≤ u)
    (h : (E.cells u).service.current ≠ (E.cells t).service.current) :
    ∃ v m p next, t ≤ v ∧ v < u ∧ E.Promotes m v p next := by
  induction u, htu using Nat.le_induction with
  | base => exact absurd rfl h
  | succ u htu ih =>
    by_cases he : (E.cells (u + 1)).service.current = (E.cells u).service.current
    · obtain ⟨v, m, p, next, htv, hvu, hp⟩ := ih (he ▸ h)
      exact ⟨v, m, p, next, htv, Nat.lt_succ_of_lt hvu, hp⟩
    · obtain ⟨m, p, next, hp⟩ := exists_promotes he
      exact ⟨u, m, p, next, htu, Nat.lt_succ_self u, hp⟩

theorem Enters.exists_current {documents : List UnsavedDocument}
    (h : E.Enters s i (.lookingUp (.locating index documents)))
    (hi : E.Passing t i k id d) : ∃ u, s < u ∧ u < t ∧ (E.cells u).service.current = k := by
  obtain ⟨b, success, hproc, _⟩ := hi.exists_batch
  obtain ⟨j, hj, hled⟩ := h.led (h.lt_of_proc hproc)
  cases hj.symm.trans hproc
  exact hled.2

/-- **Two passes of updates over a document.**  In every execution of a service with any callers of
it and its cycles:

* no two updates on the same cycle are inside storage for the same document of the same index at
  once, whether they came through the service or on the cycle;
* if two updates through the service are, they are on two cycles, and a cycle was promoted after one
  of them had got the current cycle and before the other had. -/
theorem passes_apart (E : Services) :
    (∀ t i j k id d index index', i ≠ j → E.Comes i index → E.Comes j index' →
      E.Passing t i k id d → ¬ E.Passing t j k id d) ∧
    ∀ s s' t i j k k' id d index index' documents documents', i ≠ j →
      E.Enters s i (.lookingUp (.locating index documents)) →
      E.Enters s' j (.lookingUp (.locating index' documents')) →
      E.Passing t i k id d → E.Passing t j k' id d →
      k ≠ k' ∧ ∃ u u', s < u ∧ u < t ∧ s' < u' ∧ u' < t ∧
        (E.cells u).service.current = k ∧ (E.cells u').service.current = k' ∧
        ∃ v m p next, min u u' ≤ v ∧ v < max u u' ∧ E.Promotes m v p next := by
  refine ⟨fun t i j k id d index index' hij hi hj hpi => passing_alone hij hi hj hpi,
    fun s s' t i j k k' id d index index' documents documents' hij hi hj hpi hpj => ?_⟩
  have hne : k ≠ k' := by
    rintro rfl
    exact passing_alone hij (.service hi) (.service hj) hpi hpj
  obtain ⟨u, hsu, hut, hu⟩ := hi.exists_current hpi
  obtain ⟨u', hsu', hut', hu'⟩ := hj.exists_current hpj
  refine ⟨hne, u, u', hsu, hut, hsu', hut', hu, hu', ?_⟩
  obtain hle | hle := Nat.le_total u u'
  · rw [Nat.min_eq_left hle, Nat.max_eq_right hle]
    exact exists_promotes_between hle (by rw [hu, hu']; exact hne.symm)
  · rw [Nat.min_eq_right hle, Nat.max_eq_left hle]
    exact exists_promotes_between hle (by rw [hu, hu']; exact hne)

/-- a cycle is promoted, an update on it is inside storage, and another cycle is promoted; then a
second update of the same document comes in -/
def overlap : Services :=
  ofRequests (.granting [words])
    [(.changing .acquiring,
        List.replicate 9 0 ++ List.replicate 14 1 ++ List.replicate 7 2),
      (.lookingUp (.locating words.id [.plain 1 1]), List.replicate 6 3),
      (.changing .acquiring,
        List.replicate 9 4 ++ List.replicate 14 5 ++ List.replicate 7 6),
      (.lookingUp (.locating words.id [.plain 1 2]), List.replicate 6 7)]
    ⟨.inl rfl, .inr (.inr ⟨.locating _ _, trivial, rfl⟩), .inl rfl,
      .inr (.inr ⟨.locating _ _, trivial, rfl⟩)⟩

theorem overlap_enters :
    overlap.Enters 31 3 (.lookingUp (.locating words.id [.plain 1 1])) ∧
    overlap.Enters 69 7 (.lookingUp (.locating words.id [.plain 1 2])) := ⟨⟨rfl, rfl⟩, rfl, rfl⟩

theorem overlap_passing :
    overlap.Passing 76 3 1 words.id 1 ∧ overlap.Passing 76 7 2 words.id 1 := by
  unfold Passing
  decide +kernel

/-- the second update is not on the cycle of the first: another one was promoted in between -/
theorem passes_apart_overlap :
    ¬ overlap.Passing 76 7 1 words.id 1 ∧
    ∃ u u', 31 < u ∧ u < 76 ∧ 69 < u' ∧ u' < 76 ∧
      (overlap.cells u).service.current = 1 ∧ (overlap.cells u').service.current = 2 ∧
      ∃ v m p next, min u u' ≤ v ∧ v < max u u' ∧ overlap.Promotes m v p next := by
  obtain ⟨hfirst, hsecond⟩ := overlap_enters
  obtain ⟨hold, hnew⟩ := overlap_passing
  obtain ⟨hsame, hcycles⟩ := passes_apart overlap
  have hne : (3 : Nat) ≠ 7 := by decide
  exact ⟨hsame 76 3 7 1 _ _ _ _ hne (.service hfirst) (.service hsecond) hold,
    (hcycles 31 69 76 3 7 1 2 _ _ _ _ _ _ hne hfirst hsecond hold hnew).2⟩

/-- two updates through the service can be inside storage for the same document at once -/
theorem not_passing_alone :
    ¬ ∀ (E : Services) s s' t i j k k' id d index index' documents documents', i ≠ j →
      E.Enters s i (.lookingUp (.locating index documents)) →
      E.Enters s' j (.lookingUp (.locating index' documents')) →
      E.Passing t i k id d → ¬ E.Passing t j k' id d := fun h =>
  h overlap 31 69 76 3 7 1 2 _ _ _ _ _ _ (by decide) overlap_enters.1 overlap_enters.2
    overlap_passing.1 overlap_passing.2

end Execution

end IndexCoordinator
