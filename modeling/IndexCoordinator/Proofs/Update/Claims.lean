import IndexCoordinator.Proofs.Update.Moves

/-!
# Claims are exclusive

Any number of batches work on one map of documents in flight.  A claim lives from its insertion
into the map until its removal; `liveClaims` collects the claims of all batches.  Main statement:

* `Run.claims_exclusive`   the map is exactly the live claims, no two of which are over the same
                           document; storage is inside at most one call for a document; and when
                           all batches have ended the map is empty.

The part of one batch is `Batch.Moves.entries`: with the entries of all others kept apart, a move
keeps the map equal to the entries of the batch and those others.
-/

namespace IndexCoordinator

namespace Batch

def Begins (index : IndexId) (_ : InFlight) (b : Batch) : Prop :=
  ∃ documents, b = ofDocuments index documents

/-- whether a batch is inside a call of storage for a document -/
def isIndexing (d : DocumentId) (b : Batch) : Bool :=
  match b.stage with
  | .indexing x _ => x.id == d
  | _ => false

section
variable {fired : Bool} {answer : Answering} {m m' L : InFlight} {b b' : Batch} {ev : List Event}

/-- **One move keeps the map equal to the claims.** -/
theorem Moves.entries (hm : Moves fired answer m b m' b' ev) (hb : b.Sound) (hs : m.Single)
    (h : m.Perm (b.claims.map UnsavedDocument.entry ++ L)) :
    m'.Single ∧ m'.Perm (b'.claims.map UnsavedDocument.entry ++ L) := by
  cases hm with
  | @claim d hst hfree =>
    rw [hb.claims_of_visiting (.inr ⟨d, hst⟩)] at h
    refine ⟨hs.insert hfree d.stamp, ?_⟩
    rw [InFlight.insert_of_free hfree]
    exact h.cons d.entry
  | @release panic d rest hst hcl =>
    rw [hcl] at h
    exact ⟨hs.erase d.id, InFlight.erase_perm (e := d.entry) hs h⟩
  | @seize d ready hst hready =>
    rw [(hb.claims_of_looking hst).1] at h
    refine ⟨single_sweep hs b.busy, ?_⟩
    have hsw := sweep_perm m b.busy
    rw [hready] at hsw
    exact hsw.trans (h.append_left _)
  | _ => exact ⟨hs, h⟩

/-! ## calls of storage -/

/-- how often a call of storage for a document was entered -/
def callsEntered (d : DocumentId) (trace : List Event) : Nat :=
  trace.countP fun
    | .entered (.indexUnsaved _ x) => x.id == d
    | _ => false

/-- how often a call of storage for a document was left -/
def callsLeft (d : DocumentId) (trace : List Event) : Nat :=
  trace.countP fun
    | .left (.indexUnsaved _ x) _ => x.id == d
    | _ => false

theorem callsEntered_append (d : DocumentId) (a b : List Event) :
    callsEntered d (a ++ b) = callsEntered d a + callsEntered d b := List.countP_append

theorem callsLeft_append (d : DocumentId) (a b : List Event) :
    callsLeft d (a ++ b) = callsLeft d a + callsLeft d b := List.countP_append

theorem Moves.calls (hm : Moves fired answer m b m' b' ev) (d : DocumentId) :
    callsEntered d ev + [b].countP (isIndexing d)
      = callsLeft d ev + [b'].countP (isIndexing d) := by
  cases hm with
  | seize hst _ | settle hst _ _ | quit hst _ _ _ | wait hst _ _ _ =>
    obtain hst | hst := hst <;> simp [callsEntered, callsLeft, isIndexing, hst]
  | finish hst _ _ | turn hst _ _ | giveUp hst _ _ | visit hst _ _ | defer hst _ | claim hst _
  | enter hst | leaveLast hst _ | leave hst _ | panic hst _ | release hst _ | unwind hst _
  | resume hst _ => simp [callsEntered, callsLeft, isIndexing, hst]

end

theorem Sound.claim_of_isIndexing {b : Batch} (h : b.Sound) {d : DocumentId}
    (hd : b.isIndexing d = true) : ∃ x ∈ b.claims, x.id = d := by
  unfold Sound at h
  unfold isIndexing at hd
  cases hst : b.stage with
  | indexing x rest =>
    rw [hst] at h hd
    exact ⟨x, h.subset List.mem_cons_self, by simpa using hd⟩
  | _ => simp [hst] at hd

/-- batches that hold a document, whatever else they do, are claims over it -/
theorem countP_le_count {bs : List Batch} {d : DocumentId} {p : Batch → Bool}
    (h : ∀ b ∈ bs, p b = true → ∃ x ∈ b.claims, x.id = d) :
    bs.countP p ≤ ((bs.flatMap (·.claims)).map (·.id)).count d := by
  induction bs with
  | nil => exact Nat.le_refl _
  | cons b bs ih =>
    have ih' := ih fun x hx => h x (List.mem_cons_of_mem _ hx)
    rw [List.flatMap_cons, List.map_append, List.count_append, List.countP_cons]
    by_cases hd : p b = true
    · obtain ⟨x, hx, rfl⟩ := h b List.mem_cons_self hd
      have hpos : 0 < (b.claims.map (·.id)).count x.id :=
        List.count_pos_iff.mpr (List.mem_map_of_mem hx)
      rw [if_pos hd]
      omega
    · rw [if_neg hd]
      omega

theorem countP_isIndexing_le {bs : List Batch} (h : ∀ b ∈ bs, b.Sound) (d : DocumentId) :
    bs.countP (isIndexing d) ≤ ((bs.flatMap (·.claims)).map (·.id)).count d :=
  countP_le_count fun b hb hd => (h b hb).claim_of_isIndexing hd

end Batch

namespace Run

/-- the claims of all batches -/
def liveClaims (r : Run InFlight Batch) : List UnsavedDocument := r.procs.flatMap (·.claims)

/-- what all batches together keep -/
structure Claimed (r : Run InFlight Batch) : Prop where
  sound : ∀ b ∈ r.procs, b.Sound
  single : r.shared.Single
  entries : r.shared.Perm (r.liveClaims.map UnsavedDocument.entry)
  calls : ∀ d, Batch.callsEntered d r.trace =
    Batch.callsLeft d r.trace + r.procs.countP (Batch.isIndexing d)

theorem Claimed.step {r r' : Run InFlight Batch} (h : r.Claimed) (hst : Step Batch.next r r') :
    r'.Claimed := by
  obtain ⟨i, b, fired, answer, q, hb, hq, rfl⟩ := hst.exists_under
  obtain ⟨hm, hspawn⟩ := Batch.moves_of_next hq
  have hsound := h.sound b (List.mem_of_getElem? hb)
  obtain ⟨others, hp, hp'⟩ := exists_others hb
  have hq' := hp' q
  rw [hspawn, List.append_nil] at hq'
  have hentries : r.shared.Perm (b.claims.map UnsavedDocument.entry ++
      (others.flatMap (·.claims)).map UnsavedDocument.entry) := by
    have := h.entries.trans ((hp.flatMap_right _).map _)
    rwa [List.flatMap_cons, List.map_append] at this
  obtain ⟨hsingle, hnew⟩ := hm.entries hsound h.single hentries
  refine ⟨fun x hx => ?_, hsingle, ?_, fun d => ?_⟩
  · obtain rfl | hx := List.mem_cons.mp (hq'.mem_iff.mp hx)
    · exact hm.sound hsound
    · exact h.sound x (hp.mem_iff.mpr (List.mem_cons_of_mem _ hx))
  · refine hnew.trans ?_
    rw [← List.map_append, ← List.flatMap_cons (f := fun b : Batch => b.claims)]
    exact ((hq'.symm.flatMap_right _).map _)
  · have hcalls := h.calls d
    have hmove := hm.calls d
    rw [hp.countP_eq, List.countP_cons] at hcalls
    rw [hq'.countP_eq, List.countP_cons, trace_commit, Batch.callsEntered_append,
      Batch.callsLeft_append]
    simp only [List.countP_singleton] at hmove
    omega

theorem Reachable.claimed {index : IndexId} {r : Run InFlight Batch}
    (h : Reachable Batch.next (Batch.Begins index) (· = []) r) : r.Claimed := by
  refine h.invariant (fun s hs => ?_) (fun r b hr hb => ?_) (fun r r' hr hst => hr.step hst)
  · subst hs
    exact ⟨fun _ hb => absurd hb List.not_mem_nil, InFlight.single_nil, .refl _, fun _ => rfl⟩
  · obtain ⟨documents, rfl⟩ := hb
    refine ⟨fun x hx => ?_, hr.single, ?_, fun d => ?_⟩
    · obtain hx | hx := List.mem_append.mp hx
      · exact hr.sound x hx
      · obtain rfl := List.mem_singleton.mp hx
        exact Batch.sound_ofDocuments index documents
    · have hnone : (r.invoke (.ofDocuments index documents)).liveClaims = r.liveClaims := by
        simp [liveClaims, Batch.ofDocuments]
      rw [hnone]
      exact hr.entries
    · have hnone : [Batch.ofDocuments index documents].countP (Batch.isIndexing d) = 0 := by
        simp [Batch.isIndexing, Batch.ofDocuments]
      rw [procs_invoke, List.countP_append, hnone]
      exact hr.calls d

theorem Claimed.distinct {r : Run InFlight Batch} (h : r.Claimed) :
    (r.liveClaims.map (·.id)).Nodup := by
  have hs : ((r.liveClaims.map UnsavedDocument.entry).map Prod.fst).Nodup := h.single.perm h.entries
  rwa [List.map_map] at hs

/-- **Claims are exclusive.**  In every reachable run of batches for one index the map holds one
entry for every live claim and nothing else, no two live claims are over the same document, storage
is inside at most one call for a document, and the map is empty once all batches have ended. -/
theorem claims_exclusive {index : IndexId} {r : Run InFlight Batch}
    (h : Reachable Batch.next (Batch.Begins index) (· = []) r) :
    r.shared.Perm (r.liveClaims.map fun d => (d.id, d.stamp)) ∧
    (r.liveClaims.map (·.id)).Nodup ∧
    (∀ d, Batch.callsEntered d r.trace =
        Batch.callsLeft d r.trace + r.procs.countP (Batch.isIndexing d) ∧
      r.procs.countP (Batch.isIndexing d) ≤ 1) ∧
    ((∀ b ∈ r.procs, b.result?.isSome) → r.shared = []) := by
  have hc := h.claimed
  refine ⟨hc.entries, hc.distinct, fun d => ⟨hc.calls d, ?_⟩, fun hend => ?_⟩
  · calc r.procs.countP (Batch.isIndexing d)
      _ ≤ (r.liveClaims.map (·.id)).count d := Batch.countP_isIndexing_le hc.sound d
      _ ≤ 1 := List.nodup_iff_count_le_one.mp hc.distinct d
  · have hnone : r.liveClaims = [] := by
      refine List.flatMap_eq_nil_iff.mpr fun b hb => ?_
      obtain ⟨result, hr⟩ := Option.isSome_iff_exists.mp (hend b hb)
      exact (hc.sound b hb).claims_of_result hr
    have hentries := hc.entries
    rw [hnone] at hentries
    exact List.Perm.eq_nil hentries

end Run

/-- executions of batches for one index, on a map that is empty at first -/
abbrev Batches (index : IndexId) := Execution Batch.next (Batch.Begins index) (· = [])

/-- a document of which only identity and stamp matter -/
def UnsavedDocument.plain (id : DocumentId) (stamp : Stamp) : UnsavedDocument :=
  { id, file := .regular "a" ⟨"t"⟩ 1, text := "", stamp }

namespace Batch

theorem empty_isInitial : ([] : InFlight) = [] := rfl

/-- two batches with a common document: the second finds it in flight at stamp 5, takes another
document meanwhile, and has nothing left to do when the first has ended -/
def rivals : Batches ⟨"words", 2⟩ :=
  .ofList []
    (.enter (.ofDocuments _ [.plain 1 5]) :: .enter (.ofDocuments _ [.plain 1 3, .plain 2 1])
      :: [0, 0, 1, 1, 1, 1, 0, 1, 0, 0, 0, 0, 1, 1, 1, 1, 1].map
        fun i => .move i false (.granting []))
    rfl (by
      intro p hp s
      simp only [List.mem_cons, Cue.enter.injEq] at hp
      obtain rfl | rfl | hp := hp
      · exact ⟨_, rfl⟩
      · exact ⟨_, rfl⟩
      · simp at hp)

end Batch

/-- two batches hold a claim each at once, and in the end the map is empty -/
theorem Run.claims_exclusive_rivals :
    (Batch.rivals.run 8).liveClaims = [.plain 1 5, .plain 2 1] ∧
    (Batch.rivals.run 8).shared.Perm [(1, 5), (2, 1)] ∧ (Batch.rivals.run 19).shared = [] := by
  have hlive : (Batch.rivals.run 8).liveClaims = [.plain 1 5, .plain 2 1] := by decide +kernel
  have hended : ∀ b ∈ (Batch.rivals.run 19).procs, b.result?.isSome := by decide +kernel
  refine ⟨hlive, ?_, (Run.claims_exclusive (Batch.rivals.reachable 19)).2.2.2 hended⟩
  have h := (Run.claims_exclusive (Batch.rivals.reachable 8)).1
  rw [hlive] at h
  exact h

end IndexCoordinator
