import IndexCoordinator.Proofs.Update.Tenure

/-!
# Passes in order of their stamps

The map of documents in flight remembers a stamp only as long as its pass is in flight.  So a batch
that has an older text of a document, and was not looking meanwhile, may write it over a newer one:
batches that come late do, and so does one batch with two stamps of one document.  Main statement:

* `Execution.no_stale_pass`   no pass at an older stamp ends after a finished pass, if every batch
                    that is there when the newer claim is dropped heeds its stamp or has looked at
                    its busy documents meanwhile, and no batch with an older text comes in later.

`Batch.Heeds` is the invariant: what a batch still has to do over a document is not older than a
stamp, except busy documents that are superfluous already.
-/

namespace IndexCoordinator

namespace Batch

/-- what a batch has to do over a document is at a stamp or a newer one, and what it has busy at an
older one is covered -/
structure Heeds (b : Batch) (d : DocumentId) (s : Stamp) : Prop where
  todo : ∀ x ∈ b.todo, x.id = d → s ≤ x.stamp
  claiming : ∀ x, b.stage = .claiming x → x.id = d → s ≤ x.stamp
  busy : ∀ e ∈ b.busy, e.document.id = d → s ≤ e.document.stamp ∨ e.document.stamp ≤ e.covered
  claims : ∀ x ∈ b.claims, x.id = d → s ≤ x.stamp

section
variable {fired : Bool} {answer : Answering} {m m' : InFlight} {b b' : Batch} {ev : List Event}
  {d : DocumentId} {s : Stamp}

theorem Heeds.le (h : b.Heeds d s) {s' : Stamp} (hs : s' ≤ s) : b.Heeds d s' :=
  ⟨fun x hx hid => Nat.le_trans hs (h.todo x hx hid),
    fun x hx hid => Nat.le_trans hs (h.claiming x hx hid),
    fun e he hid => (h.busy e he hid).imp_left (Nat.le_trans hs),
    fun x hx hid => Nat.le_trans hs (h.claims x hx hid)⟩

theorem heeds_ofDocuments {index : IndexId} {documents : List UnsavedDocument}
    (h : ∀ x ∈ documents, x.id = d → s ≤ x.stamp) : (ofDocuments index documents).Heeds d s :=
  ⟨h, nofun, nofun, nofun⟩

theorem Heeds.busy_of_sweep (h : b.Heeds d s) {e' : BusyEntry} (he' : e' ∈ (sweep m b.busy).2.1)
    (hid : e'.document.id = d) :
    s ≤ e'.document.stamp ∨ e'.document.stamp ≤ e'.covered := by
  obtain ⟨e, he, s', _, rfl⟩ := exists_of_mem_busy he'
  exact (h.busy e he hid).imp_right fun hle => Nat.le_trans hle (Nat.le_max_left _ _)

theorem Heeds.claims_of_sweep (h : b.Heeds d s) {x : UnsavedDocument}
    (hx : x ∈ (sweep m b.busy).2.2) (hid : x.id = d) : s ≤ x.stamp := by
  obtain ⟨_, e, he, rfl, hlt⟩ := exists_of_mem_claimed hx
  exact (h.busy e he hid).resolve_right (Nat.not_le_of_lt hlt)

theorem Moves.heeds (hm : Moves fired answer m b m' b' ev) (h : b.Heeds d s) : b'.Heeds d s := by
  cases hm with
  | seize _ hready =>
    exact ⟨h.todo, nofun, fun e he hid => h.busy_of_sweep he hid,
      fun x hx hid => h.claims_of_sweep (hready ▸ hx) hid⟩
  | settle _ _ _ => exact ⟨h.todo, nofun, nofun, h.claims⟩
  | quit _ _ _ _ | wait _ _ _ _ =>
    exact ⟨h.todo, nofun, fun e he hid => h.busy_of_sweep he hid, h.claims⟩
  | @visit x rest _ htodo _ =>
    refine ⟨fun y hy => h.todo y (htodo ▸ List.mem_cons_of_mem _ hy), fun y hy => ?_, h.busy,
      h.claims⟩
    cases hy
    exact h.todo x (htodo ▸ List.mem_cons_self)
  | @defer x s' hst _ =>
    refine ⟨h.todo, nofun, fun e he hid => ?_, h.claims⟩
    obtain he | he := List.mem_append.mp he
    · exact h.busy e he hid
    · obtain rfl := List.mem_singleton.mp he
      exact .inl (h.claiming x hst hid)
  | @claim x hst _ =>
    refine ⟨h.todo, nofun, h.busy, fun y hy hid => ?_⟩
    obtain rfl := List.mem_singleton.mp hy
    exact h.claiming y hst hid
  | release hst hcl =>
    exact ⟨h.todo, h.claiming, h.busy, fun y hy => h.claims y (hcl ▸ List.mem_cons_of_mem _ hy)⟩
  | finish _ _ _ | turn _ _ _ | giveUp _ _ _ | enter _ | leaveLast _ _ | leave _ _ | panic _ _
  | unwind _ _ | resume _ _ => exact ⟨h.todo, nofun, h.busy, h.claims⟩

theorem covered_of_sweep (hs : m.Single) (hd : (d, s) ∈ m) {e : BusyEntry}
    (he : e ∈ (sweep m b.busy).2.1) (hid : e.document.id = d) :
    s ≤ e.document.stamp ∨ e.document.stamp ≤ e.covered := by
  have hle : s ≤ e.covered := stamp_le_of_mem_busy he hs (hid ▸ hd)
  obtain h | h := Nat.le_total s e.document.stamp
  · exact .inl h
  · exact .inr (Nat.le_trans h hle)

/-- **A batch that looks while a pass is in flight heeds its stamp.** -/
theorem Moves.heeds_of_look (hm : Moves fired answer m b m' b' ev) (hb : b.Sound)
    (hst : b.stage = .looking ∨ b.stage = .waiting) (hs : m.Single) (hd : (d, s) ∈ m) :
    b'.Heeds d s := by
  obtain ⟨hclaims, htodo⟩ := hb.claims_of_looking hst
  have hnone : ∀ x ∈ b.todo, x.id = d → s ≤ x.stamp := htodo ▸ nofun
  cases hm with
  | seize _ hready =>
    refine ⟨hnone, nofun, fun e he hid => covered_of_sweep hs hd he hid, fun x hx hid => ?_⟩
    have hfree := (exists_of_mem_claimed (hready ▸ hx)).1
    exact absurd hid.symm (InFlight.stamp?_eq_none.mp hfree _ hd)
  | settle _ _ _ => exact ⟨hnone, nofun, nofun, hclaims ▸ nofun⟩
  | quit _ _ _ _ | wait _ _ _ _ =>
    exact ⟨hnone, nofun, fun e he hid => covered_of_sweep hs hd he hid, hclaims ▸ nofun⟩
  | finish hst' _ _ | turn hst' _ _ | giveUp hst' _ _ | visit hst' _ _ | defer hst' _ | claim hst' _
  | enter hst' | leaveLast hst' _ | leave hst' _ | panic hst' _ | release hst' _ | unwind hst' _
  | resume hst' _ => obtain hst | hst := hst <;> cases hst.symm.trans hst'

end

end Batch

namespace Execution

variable {index : IndexId} {E : Batches index}

theorem Holds.unique {t j k : Nat} {x y : UnsavedDocument} (hx : E.Holds t j x)
    (hy : E.Holds t k y) (hid : x.id = y.id) : x = y :=
  List.inj_on_of_nodup_map (reachable t).claimed.distinct (mem_liveClaims.mpr ⟨j, hx⟩)
    (mem_liveClaims.mpr ⟨k, hy⟩) hid

theorem CallEnds.holds {t i : Nat} {d : UnsavedDocument} {a : Outcome Unit}
    (h : E.CallEnds t i (.indexUnsaved index d) a) : E.Holds t i d := by
  obtain ⟨b, fired, answer, q, hm, ⟨rest, hst⟩, _, _⟩ := h.indexing
  have hb := batch_sound hm.proc
  unfold Batch.Sound at hb
  rw [hst] at hb
  exact ⟨b, hm.proc, hb.subset List.mem_cons_self⟩

/-- a batch looks at its busy documents -/
def Rechecks (E : Batches index) (t i : Nat) : Prop :=
  ∃ b fired answer q, E.Moves t i b fired answer q ∧ (b.stage = .looking ∨ b.stage = .waiting)

theorem heeds_later {d : DocumentId} {s : Stamp} {u w k : Nat} {b : Batch}
    (hb : E.proc? u k = some b) (h : b.Heeds d s) (huw : u ≤ w) :
    ∃ b', E.proc? w k = some b' ∧ b'.Heeds d s := by
  induction w, huw using Nat.le_induction with
  | base => exact ⟨b, hb, h⟩
  | succ w _ ih =>
    obtain ⟨b', hb', h'⟩ := ih
    obtain hstay | ⟨fired, answer, q, hm⟩ := proc_succ hb'
    · exact ⟨b', hstay, h'⟩
    · exact ⟨_, hm.self_succ, hm.batch.heeds h'⟩

/-- a batch that has looked while a claim was alive heeds the stamp of that claim -/
theorem Rechecks.heeds {u w j k : Nat} {x : UnsavedDocument} (h : E.Rechecks u k) (hx : E.Holds u j x)
    (huw : u < w) : ∃ b, E.proc? w k = some b ∧ b.Heeds x.id x.stamp := by
  obtain ⟨b, fired, answer, q, hm, hst⟩ := h
  have hc := (reachable (E := E) u).claimed
  have hin : x.entry ∈ E.cells u :=
    hc.entries.mem_iff.mpr (List.mem_map_of_mem (mem_liveClaims.mpr ⟨j, hx⟩))
  exact heeds_later hm.self_succ (hm.batch.heeds_of_look (batch_sound hm.proc) hst hc.single hin)
    huw

theorem exists_origin {u w k : Nat} {b : Batch} (hb : E.proc? w k = some b) (huw : u ≤ w) :
    (∃ b₀, E.proc? u k = some b₀) ∨
      ∃ v documents, u ≤ v ∧ v < w ∧ E.Enters v k (.ofDocuments index documents) := by
  induction w, huw using Nat.le_induction generalizing b with
  | base => exact .inl ⟨b, hb⟩
  | succ w huw ih =>
    have hbefore {b₀ : Batch} (hb₀ : E.proc? w k = some b₀) :
        (∃ b₀, E.proc? u k = some b₀) ∨
          ∃ v documents, u ≤ v ∧ v < w + 1 ∧ E.Enters v k (.ofDocuments index documents) := by
      obtain h | ⟨v, documents, h1, h2, h⟩ := ih hb₀
      · exact .inl h
      · exact .inr ⟨v, documents, h1, Nat.lt_succ_of_lt h2, h⟩
    obtain h | ⟨b₀, _, _, _, hm, _⟩ | ⟨he, documents, rfl⟩ | ⟨j, b₀, _, _, _, hm, hs, _⟩ :=
      proc_of_succ hb
    · exact hbefore h
    · exact hbefore hm.proc
    · exact .inr ⟨w, documents, huw, Nat.lt_succ_self w, he⟩
    · rw [(Batch.moves_of_next hm.leads).2] at hs
      cases hs

/-- storage finishes the call of a batch for a document, and the batch drops the document later -/
structure Pass (E : Batches index) (v f j : Nat) (x : UnsavedDocument) : Prop where
  finished : E.CallEnds v j (.indexUnsaved index x) (.returned ())
  before : v < f
  kept : ∀ u, v < u → u ≤ f → E.Holds u j x
  dropped : ¬ E.Holds (f + 1) j x

/-- **No stale pass.**  Let a pass over a document be finished, and let every batch that is there
when its claim has been dropped heed a stamp that is not newer, or have looked at its busy documents
while the document was held.  As long as no batch with an older text comes in, no pass over the
document at an older stamp ends. -/
theorem no_stale_pass {v f j : Nat} {x : UnsavedDocument} (hpass : E.Pass v f j x) {s : Stamp}
    (hs : s ≤ x.stamp)
    (hheed : ∀ k b, E.proc? (f + 1) k = some b →
      b.Heeds x.id s ∨ ∃ u, u ≤ f ∧ E.Holds u j x ∧ E.Rechecks u k)
    {w k : Nat} {y : UnsavedDocument} {a : Outcome Unit}
    (hlater : ∀ u i documents, f < u → u < w → E.Enters u i (.ofDocuments index documents) →
      ∀ z ∈ documents, z.id = x.id → s ≤ z.stamp)
    (hvw : v < w) (hend : E.CallEnds w k (.indexUnsaved index y) a) (hy : y.id = x.id) :
    s ≤ y.stamp := by
  have hholds := hend.holds
  by_cases hwf : w ≤ f
  · -- until then the document is held for the finished pass
    have hx := hpass.kept w hvw hwf
    obtain rfl := hx.unique hholds hy.symm
    exact hs
  · have hfw : f + 1 ≤ w := Nat.lt_of_not_le hwf
    obtain ⟨b, hb, hyb⟩ := hholds
    have hheeds : ∃ b', E.proc? w k = some b' ∧ b'.Heeds x.id s := by
      obtain ⟨b₀, hb₀⟩ | ⟨u, documents, hfu, huw, he⟩ := exists_origin hb hfw
      · obtain h | ⟨u, huf, hx, hlook⟩ := hheed k b₀ hb₀
        · exact heeds_later hb₀ h hfw
        · obtain ⟨b', hb', h⟩ := hlook.heeds hx (show u < w by omega)
          exact ⟨b', hb', h.le hs⟩
      · have h : (Batch.ofDocuments index documents).Heeds x.id s :=
          Batch.heeds_ofDocuments (hlater u k documents hfu huw he)
        exact heeds_later he.proc_succ h huw
    obtain ⟨b', hb', h⟩ := hheeds
    obtain rfl : b = b' := Option.some.inj (hb.symm.trans hb')
    exact h.claims y hyb hy

/-- three batches with a common document: the second looks while the first has it in flight at
stamp 5, the third comes in later with stamp 7 -/
def heedful : Batches ⟨"words", 2⟩ :=
  .ofList []
    ([.enter (.ofDocuments _ [.plain 1 5]), .enter (.ofDocuments _ [.plain 1 3])] ++
      [0, 0, 1, 1, 1, 1, 0, 0, 0].map (fun i => .move i false (.granting [])) ++
      .enter (.ofDocuments _ [.plain 1 7]) ::
        [2, 2, 2, 2].map fun i => .move i false (.granting []))
    Batch.empty_isInitial (by
      intro p hp s
      simp only [List.mem_append, List.mem_cons, List.mem_map, Cue.enter.injEq, reduceCtorEq,
        List.not_mem_nil, and_false, exists_false, or_false] at hp
      obtain (rfl | rfl) | rfl := hp <;> exact ⟨_, rfl⟩)

theorem pass_heedful : heedful.Pass 9 10 0 (.plain 1 5) where
  finished := ⟨_, _, _, _, rfl, rfl, rfl, rfl⟩
  before := by decide
  kept u h1 h2 := by
    obtain rfl : u = 10 := Nat.le_antisymm h2 h1
    exact ⟨_, rfl, List.mem_cons_self⟩
  dropped := by
    rintro ⟨b, hb, hx⟩
    cases hb
    cases hx

/-- the pass of the first is finished at moment 9, and the one that is finished at 15 is newer -/
theorem no_stale_pass_heedful :
    heedful.CallEnds 15 2 (.indexUnsaved ⟨"words", 2⟩ (.plain 1 7)) (.returned ()) ∧
    5 ≤ (UnsavedDocument.plain 1 7).stamp := by
  have hend : heedful.CallEnds 15 2 (.indexUnsaved ⟨"words", 2⟩ (.plain 1 7)) (.returned ()) :=
    ⟨_, _, _, _, rfl, rfl, rfl, rfl⟩
  have hlook : heedful.Rechecks 7 1 := ⟨_, _, _, _, .of_cue rfl rfl rfl, .inl rfl⟩
  refine ⟨hend, no_stale_pass pass_heedful (Nat.le_refl 5) ?_ ?_ (by decide) hend rfl⟩
  · intro k b hb
    match k with
    | 0 =>
      cases hb
      exact .inl ⟨nofun, nofun, nofun, nofun⟩
    | 1 => exact .inr ⟨7, by decide, ⟨_, rfl, List.mem_cons_self⟩, hlook⟩
    | k + 2 => cases hb
  · intro u i documents h1 h2 he z hz _
    obtain rfl | rfl | rfl | rfl : u = 11 ∨ u = 12 ∨ u = 13 ∨ u = 14 := by omega
    · cases he.1
      obtain rfl := List.mem_singleton.mp hz
      decide
    all_goals cases he.1

/-- one batch with two stamps of one document, the newer first -/
def regressing : Batches ⟨"words", 2⟩ :=
  .ofList [] (.enter (.ofDocuments _ [.plain 1 5, .plain 1 3]) ::
      (List.replicate 11 0).map fun i => .move i false (.granting []))
    Batch.empty_isInitial (by
      intro p hp s
      simp only [List.mem_cons, List.mem_map, Cue.enter.injEq, reduceCtorEq, and_false,
        exists_false, or_false] at hp
      obtain rfl := hp
      exact ⟨_, rfl⟩)

theorem quiet_regressing : regressing.Quiet := by
  intro t i d p h
  obtain ⟨_, _, hmem, ha⟩ := h.exists_cue
  simp only [List.mem_cons, List.mem_map, reduceCtorEq, Cue.move.injEq, false_or] at hmem
  obtain ⟨_, _, _, _, rfl⟩ := hmem
  cases ha

/-- while a batch with a document is on its way, and after a pass over it at a stamp as new was
finished, a pass at an older stamp may be finished -/
theorem stale_pass_possible :
    ¬ ∀ (index : IndexId) (E : Batches index) (t₀ v w i j k : Nat)
      (documents : List UnsavedDocument) (b : Batch) (d x y : UnsavedDocument), E.Quiet →
      E.Enters t₀ i (.ofDocuments index documents) → d ∈ documents →
      t₀ < v → E.CallEnds v j (.indexUnsaved index x) (.returned ()) → x.id = d.id →
      d.stamp ≤ x.stamp →
      v < w → E.proc? w i = some b → b.result? = none →
      E.CallEnds w k (.indexUnsaved index y) (.returned ()) → y.id = d.id →
      d.stamp ≤ y.stamp := by
  intro h
  have hon : (regressing.proc? 10 0).map Batch.result? = some none := by decide +kernel
  obtain ⟨b, hb, hr⟩ := Option.map_eq_some_iff.mp hon
  have hnew : regressing.CallEnds 4 0 (.indexUnsaved _ (.plain 1 5)) (.returned ()) :=
    ⟨_, _, _, _, rfl, rfl, rfl, rfl⟩
  have hold : regressing.CallEnds 10 0 (.indexUnsaved _ (.plain 1 3)) (.returned ()) :=
    ⟨_, _, _, _, rfl, rfl, rfl, rfl⟩
  have hle := h _ regressing 0 4 10 0 0 0 _ b (.plain 1 5) (.plain 1 5) (.plain 1 3)
    quiet_regressing ⟨rfl, rfl⟩ List.mem_cons_self (by decide) hnew rfl (Nat.le_refl _) (by decide)
    hb hr hold rfl
  exact absurd hle (by decide)

end Execution

end IndexCoordinator
