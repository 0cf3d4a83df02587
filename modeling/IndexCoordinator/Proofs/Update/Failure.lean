import IndexCoordinator.Proofs.Update.Coverage

/-!
# Batches when storage panics

A batch drops its claims also when storage panics, and a batch that waits for one of them cannot
tell the two ends apart: it may complete although no pass over its document was finished.  Main
statement:

* `Execution.completed_unless_lost`   this happens only to a document that was in flight, at its
                            stamp or a newer one, with another batch, and that batch panicked while
                            it held the document.

`Batch.Doomed` says that storage has panicked on a batch; such a batch never completes.
-/

namespace IndexCoordinator

namespace Batch

/-- storage has panicked on it -/
def Doomed (b : Batch) : Prop := b.Unwinding ∨ ∃ p, b.stage = .ended (.unwound p)

section
variable {fired : Bool} {answer : Answering} {m m' : InFlight} {b b' : Batch} {ev : List Event}

theorem Moves.doomed (hm : Moves fired answer m b m' b' ev) (h : b.Doomed) : b'.Doomed := by
  cases hm with
  | release _ _ => exact h
  | unwind _ _ => exact .inr ⟨_, rfl⟩
  | panic _ _ => exact .inl ⟨_, rfl⟩
  | seize hst _ | settle hst _ _ | quit hst _ _ _ | wait hst _ _ _ =>
    obtain ⟨p, hp⟩ | ⟨p, hp⟩ := h <;> obtain hst | hst := hst <;> cases hst.symm.trans hp
  | finish hst _ _ | turn hst _ _ | giveUp hst _ _ | visit hst _ _ | defer hst _ | claim hst _
  | enter hst | leaveLast hst _ | leave hst _ | resume hst _ =>
    obtain ⟨p, hp⟩ | ⟨p, hp⟩ := h <;> cases hst.symm.trans hp

theorem Moves.doomed_of_panicked (hm : Moves fired answer m b m' b' ev) {d : UnsavedDocument}
    {rest : List UnsavedDocument} {p : PanicPayload} (hst : b.stage = .indexing d rest)
    (ha : answer (.indexUnsaved b.index d) = .panicked p) : b'.Doomed := by
  cases hm with
  | panic _ _ => exact .inl ⟨_, rfl⟩
  | leaveLast hst' ha' | leave hst' ha' =>
    cases hst.symm.trans hst'
    cases ha.symm.trans ha'
  | seize hst' _ | settle hst' _ _ | quit hst' _ _ _ | wait hst' _ _ _ =>
    obtain hst' | hst' := hst' <;> cases hst.symm.trans hst'
  | finish hst' _ _ | turn hst' _ _ | giveUp hst' _ _ | visit hst' _ _ | defer hst' _
  | claim hst' _ | enter hst' | release hst' _ | unwind hst' _ | resume hst' _ =>
    cases hst.symm.trans hst'

end

theorem not_doomed {b : Batch} (h : b.stage = .ended .completed) : ¬ b.Doomed := by
  rintro (⟨p, hp⟩ | ⟨p, hp⟩) <;> cases h.symm.trans hp

theorem stage_of_result {b : Batch} {r : BatchEnd} (h : b.result? = some r) :
    b.stage = .ended r := by
  cases hs : b.stage with
  | ended r' =>
    simp only [result?, hs, Option.some.injEq] at h
    rw [h]
  | _ => simp [result?, hs] at h

theorem Sound.no_place {b : Batch} (hb : b.Sound) (h : b.stage = .ended .completed)
    (d : UnsavedDocument) : ¬ b.Place d := by
  unfold Sound at hb
  rw [h] at hb
  obtain ⟨hclaims, htodo, hbusy⟩ := hb
  intro hp
  cases hp with
  | todo hd => simp [htodo] at hd
  | claiming hd => cases h.symm.trans hd
  | busy e he _ => simp [hbusy] at he
  | held hd => simp [hclaims] at hd

end Batch

namespace Execution

variable {index : IndexId} {E : Batches index}

theorem CallEnds.doomed {v t i : Nat} {d : UnsavedDocument} {p : PanicPayload}
    (h : E.CallEnds v i (.indexUnsaved index d) (.panicked p)) (ht : v < t) :
    ∃ b, E.proc? t i = some b ∧ b.Doomed := by
  induction t, (show v + 1 ≤ t from ht) using Nat.le_induction with
  | base =>
    obtain ⟨b, fired, answer, q, hm, ⟨rest, hst⟩, _, ha⟩ := h.indexing
    rw [← index_eq hm.proc] at ha
    exact ⟨_, hm.self_succ, hm.batch.doomed_of_panicked hst ha⟩
  | succ t ht' ih =>
    obtain ⟨b, hb, hd⟩ := ih ht'
    obtain hb' | ⟨fired, answer, q, hm⟩ := proc_succ hb
    · exact ⟨b, hb', hd⟩
    · exact ⟨_, hm.self_succ, hm.batch.doomed hd⟩

/-- **A completed batch is covered unless a claim was lost.**  When a batch has completed, then each
of its documents is covered, or was in flight meanwhile, at its stamp or a newer one, with another
batch on which storage panicked while it held the document. -/
theorem completed_unless_lost {t₀ t i : Nat} {documents : List UnsavedDocument}
    (h0 : E.Enters t₀ i (.ofDocuments index documents)) {b : Batch} (hb : E.proc? t i = some b)
    (hend : b.result? = some .completed) {d : UnsavedDocument} (hd : d ∈ documents) :
    E.Covered t₀ t d ∨
    ∃ c : Claim, c.holder ≠ i ∧ c.document.id = d.id ∧ d.stamp ≤ c.document.stamp ∧
      (∃ u, t₀ < u ∧ u ≤ t ∧ c.LiveAt E u) ∧ c.LostBefore E t ∧ ¬ c.IndexedBefore E t := by
  obtain ⟨b₂, hb2, htr⟩ := h0.traced (h0.lt_of_proc hb)
  obtain rfl : b = b₂ := Option.some.inj (hb.symm.trans hb2)
  have hst := Batch.stage_of_result hend
  obtain ⟨c, ⟨hid, hs, hu⟩, hc⟩ :=
    (htr.placed d hd).resolve_left ((batch_sound hb).no_place hst d)
  by_cases hi : c.IndexedBefore E t
  · exact .inl ⟨c, hid, hs, hu, hi⟩
  · have hlost := hc.resolve_left hi
    refine .inr ⟨c, ?_, hid, hs, hu, hlost, hi⟩
    rintro rfl
    obtain ⟨v, hv, _, x, p, hp⟩ := hlost
    obtain ⟨b₂, hb2, hdoomed⟩ := hp.doomed hv
    obtain rfl : b = b₂ := Option.some.inj (hb.symm.trans hb2)
    exact Batch.not_doomed hst hdoomed

def withoutPasses : Answering
  | .indexUnsaved _ _ => .panicked (.text "boom")
  | r => Answering.granting [] r

/-- two batches with a common document: the second waits for the first, on which storage panics -/
def bereft : Batches ⟨"words", 2⟩ :=
  .ofList []
    (.enter (.ofDocuments _ [.plain 1 5]) :: .enter (.ofDocuments _ [.plain 1 3])
      :: [0, 0, 1, 1, 1, 1, 0, 0, 0, 0, 1].map fun i => .move i false withoutPasses)
    Batch.empty_isInitial (by
      intro p hp s
      simp only [List.mem_cons, Cue.enter.injEq] at hp
      obtain rfl | rfl | hp := hp
      · exact ⟨_, rfl⟩
      · exact ⟨_, rfl⟩
      · simp at hp)

theorem not_returned_bereft {u j : Nat} {x : UnsavedDocument} :
    ¬ bereft.CallEnds u j (.indexUnsaved ⟨"words", 2⟩ x) (.returned ()) := by
  intro h
  obtain ⟨_, _, hmem, ha⟩ := h.exists_cue
  simp only [List.mem_cons, List.mem_map, reduceCtorEq, Cue.move.injEq, false_or] at hmem
  obtain ⟨_, _, _, _, rfl⟩ := hmem
  cases ha

theorem completes_bereft :
    ∃ b, bereft.proc? 13 1 = some b ∧ b.result? = some .completed := by
  have h : (bereft.proc? 13 1).bind Batch.result? = some .completed := by decide +kernel
  obtain ⟨b, hb, hr⟩ := Option.bind_eq_some_iff.mp h
  exact ⟨b, hb, hr⟩

/-- the second of them completes uncovered, for the claim of the first was lost -/
theorem completed_unless_lost_bereft :
    ∃ c : Claim, c.holder ≠ 1 ∧ c.document.id = 1 ∧ 3 ≤ c.document.stamp ∧
      (∃ u, 1 < u ∧ u ≤ 13 ∧ c.LiveAt bereft u) ∧ c.LostBefore bereft 13 ∧
      ¬ c.IndexedBefore bereft 13 := by
  obtain ⟨b, hb, hr⟩ := completes_bereft
  have hlen : (bereft.run 1).procs.length = 1 := by decide +kernel
  have h0 : bereft.Enters 1 1 (.ofDocuments _ [.plain 1 3]) := ⟨rfl, hlen⟩
  refine (completed_unless_lost h0 hb hr (d := .plain 1 3) List.mem_cons_self).resolve_left ?_
  rintro ⟨c, _, _, _, u, _, _, hend⟩
  exact not_returned_bereft hend

/-- a batch whose document waits for a pass that panics may complete although no pass over that
document, at its stamp or a newer one, was finished -/
theorem not_covered_after_panic :
    ¬ ∀ (index : IndexId) (E : Batches index) (t₀ v t i k : Nat) (documents : List UnsavedDocument)
      (b w : Batch) (d x : UnsavedDocument) (p : PanicPayload),
      E.Enters t₀ i (.ofDocuments index documents) → d ∈ documents →
      E.CallEnds v k (.indexUnsaved index x) (.panicked p) → x.id = d.id → k ≠ i → v < t →
      E.proc? v i = some w → (∃ e ∈ w.busy, e.document = d) →
      E.proc? t i = some b → b.result? = some .completed →
      ∃ u j y, u < t ∧ y.id = d.id ∧ d.stamp ≤ y.stamp ∧
        E.CallEnds u j (.indexUnsaved index y) (.returned ()) := by
  intro h
  obtain ⟨b, hb, hr⟩ := completes_bereft
  have hlen : (bereft.run 1).procs.length = 1 := by decide +kernel
  have hwait : (bereft.proc? 9 1).map Batch.busy = some [⟨.plain 1 3, 5⟩] := by decide +kernel
  obtain ⟨w, hw, hbusy⟩ := Option.map_eq_some_iff.mp hwait
  have hpanic : bereft.CallEnds 9 0 (.indexUnsaved ⟨"words", 2⟩ (.plain 1 5))
      (.panicked (.text "boom")) := ⟨_, _, _, _, rfl, rfl, rfl, rfl⟩
  obtain ⟨u, j, y, _, _, _, hend⟩ := h _ bereft 1 9 13 1 0 _ b w (.plain 1 3) (.plain 1 5) _
    ⟨rfl, hlen⟩ List.mem_cons_self hpanic rfl (by decide) (by decide) hw
    ⟨_, hbusy ▸ List.mem_cons_self, rfl⟩ hb hr
  exact not_returned_bereft hend

end Execution

end IndexCoordinator
