import IndexCoordinator.Proofs.Update.Trail

/-!
# A completed batch is covered

Where storage never panics, a batch that completes leaves every one of its documents reflected at
its own stamp or a newer one: for each of them some claim at such a stamp lived while the batch was
on its way, and the document of that claim was indexed before the batch ended
(`Execution.completed_is_covered`).

The invariant is `Execution.Pledged`: the stamp that a batch remembers for a busy document is
bounded by a claim that it has seen, and that claim is still alive or was indexed; every document of
the batch is still to be visited, busy, held, or covered.
-/

namespace IndexCoordinator

namespace Execution

open Claim

variable {index : IndexId} {E : Batches index}

/-- since a moment a claim over a document at a stamp or a newer one was seen alive, and it is
still alive or was indexed -/
def Seen (E : Batches index) (t₀ t : Nat) (d : DocumentId) (s : Stamp) : Prop :=
  ∃ c : Claim, c.document.id = d ∧ s ≤ c.document.stamp ∧
    (∃ u, t₀ < u ∧ u ≤ t ∧ c.LiveAt E u) ∧ (c.LiveAt E t ∨ c.IndexedBefore E t)

/-- since a moment a claim over a document at its stamp or a newer one was alive, and it was
indexed -/
def Covered (E : Batches index) (t₀ t : Nat) (d : UnsavedDocument) : Prop :=
  ∃ c : Claim, c.document.id = d.id ∧ d.stamp ≤ c.document.stamp ∧
    (∃ u, t₀ < u ∧ u ≤ t ∧ c.LiveAt E u) ∧ c.IndexedBefore E t

/-- what a batch that came in at a moment has made of one of its documents -/
inductive Standing (E : Batches index) (t₀ t : Nat) (b : Batch) (d : UnsavedDocument) : Prop where
  | todo : d ∈ b.todo → Standing E t₀ t b d
  | claiming : b.stage = .claiming d → Standing E t₀ t b d
  | busy (e : BusyEntry) : e ∈ b.busy → e.document = d → Standing E t₀ t b d
  | held : d ∈ b.claims → Standing E t₀ t b d
  | covered : E.Covered t₀ t d → Standing E t₀ t b d

/-- what a batch that came in at a moment has made of all its documents -/
structure Pledged (E : Batches index) (t₀ t : Nat) (documents : List UnsavedDocument)
    (b : Batch) : Prop where
  seen : ∀ e ∈ b.busy, E.Seen t₀ t e.document.id e.covered
  standing : ∀ d ∈ documents, E.Standing t₀ t b d

theorem Enters.pledged {t₀ t i : Nat} {documents : List UnsavedDocument}
    (h0 : E.Enters t₀ i (.ofDocuments index documents)) (hE : E.Quiet) (ht : t₀ < t) :
    ∃ b, E.proc? t i = some b ∧ E.Pledged t₀ t documents b := by
  obtain ⟨b, hb, htr⟩ := h0.traced ht
  refine ⟨b, hb, fun e he => ?_, fun d hd => ?_⟩
  · obtain ⟨c, hid, hs, u, h1, h2, hu⟩ := htr.glimpsed e he
    exact ⟨c, hid, hs, ⟨u, h1, h2, hu⟩, (hu.later h2).imp_right fun hc => hc.indexed hE⟩
  · obtain hp | ⟨c, ⟨hid, hs, hu⟩, hc⟩ := htr.placed d hd
    · cases hp with
      | todo hd => exact .todo hd
      | claiming hd => exact .claiming hd
      | busy e he hed => exact .busy e he hed
      | held hd => exact .held hd
    · exact .covered ⟨c, hid, hs, hu, hc.indexed hE⟩

/-- **A completed batch is covered.**  Let storage never panic.  When a batch has completed, then
for every document of it some claim over that document, at its stamp or a newer one, was alive
while the batch was on its way, and storage finished the call of that claim before the batch
ended. -/
theorem completed_is_covered (hE : E.Quiet) {t₀ t i : Nat} {documents : List UnsavedDocument}
    (h0 : E.Enters t₀ i (.ofDocuments index documents)) {b : Batch} (hb : E.proc? t i = some b)
    (hend : b.result? = some .completed) {d : UnsavedDocument} (hd : d ∈ documents) :
    ∃ c : Claim, c.document.id = d.id ∧ d.stamp ≤ c.document.stamp ∧
      (∃ u, t₀ < u ∧ u ≤ t ∧ c.LiveAt E u) ∧ c.IndexedBefore E t := by
  obtain ⟨b₂, hb2, hp⟩ := h0.pledged hE (h0.lt_of_proc hb)
  obtain rfl : b = b₂ := Option.some.inj (hb.symm.trans hb2)
  have hst : b.stage = .ended .completed := by
    cases hs : b.stage with
    | ended r =>
      simp only [Batch.result?, hs, Option.some.injEq] at hend
      rw [hend]
    | _ => simp [Batch.result?, hs] at hend
  have hsound := batch_sound hb
  unfold Batch.Sound at hsound
  rw [hst] at hsound
  obtain ⟨hclaims, htodo, hbusy⟩ := hsound
  cases hp.standing d hd with
  | todo hd =>
    rw [htodo] at hd
    cases hd
  | claiming hd =>
    rw [hst] at hd
    cases hd
  | busy e he _ =>
    rw [hbusy] at he
    cases he
  | held hd =>
    rw [hclaims] at hd
    cases hd
  | covered hd => exact hd

theorem quiet_rivals : Batch.rivals.Quiet := by
  intro t i d p h
  obtain ⟨_, _, hmem, ha⟩ := h.exists_cue
  simp only [List.mem_cons, List.mem_map, reduceCtorEq, Cue.move.injEq, false_or] at hmem
  obtain ⟨_, _, _, _, rfl⟩ := hmem
  cases ha

/-- the second of two batches is covered by the claim of the first -/
theorem completed_is_covered_rivals :
    ∃ c : Claim, c.document.id = 1 ∧ 3 ≤ c.document.stamp ∧
      (∃ u, 1 < u ∧ u ≤ 19 ∧ c.LiveAt Batch.rivals u) ∧ c.IndexedBefore Batch.rivals 19 := by
  have hend : (Batch.rivals.proc? 19 1).bind Batch.result? = some .completed := by decide +kernel
  have hlen : (Batch.rivals.run 1).procs.length = 1 := by decide +kernel
  obtain ⟨b, hb, hr⟩ := Option.bind_eq_some_iff.mp hend
  have h0 : Batch.rivals.Enters 1 1 (.ofDocuments _ [.plain 1 3, .plain 2 1]) := ⟨rfl, hlen⟩
  exact completed_is_covered quiet_rivals h0 hb hr (d := .plain 1 3) List.mem_cons_self

end Execution

end IndexCoordinator
