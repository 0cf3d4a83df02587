import IndexCoordinator.Proofs.Update.Tenure

/-!
# What becomes of the documents of a batch

A document of a batch is to be visited, busy or held until the batch lets go of it: it drops a
claim, or leaves out a busy document that is free and covered.

* `Batch.Moves.place`      a document keeps some place in the batch, or the batch lets go of it;
* `Batch.Moves.origin`     what is remembered for a busy document was in flight;
* `Execution.Enters.traced`   every document of a batch has a place in it, or a claim over the
                           document, at its stamp or a newer one, was alive meanwhile and has ended.
-/

namespace IndexCoordinator

namespace Batch

/-- where a batch has a document -/
inductive Place (b : Batch) (d : UnsavedDocument) : Prop where
  | todo : d ∈ b.todo → Place b d
  | claiming : b.stage = .claiming d → Place b d
  | busy (e : BusyEntry) : e ∈ b.busy → e.document = d → Place b d
  | held : d ∈ b.claims → Place b d

/-- a batch lets go of a document: it drops a claim, or leaves out what is free and covered -/
inductive LetsGo (m : InFlight) (b b' : Batch) (d : UnsavedDocument) : Prop where
  | dropped : d ∈ b.claims → d ∉ b'.claims → LetsGo m b b' d
  | covered (e : BusyEntry) : e ∈ b.busy → e.document = d → m.stamp? d.id = none →
      d.stamp ≤ e.covered → LetsGo m b b' d

section
variable {fired : Bool} {answer : Answering} {m m' : InFlight} {b b' : Batch} {ev : List Event}
  {d : UnsavedDocument}

/-- what is to be shown where a move takes nothing from the busy documents -/
theorem Place.pass {P : Prop} (h : b.Place d) (htodo : d ∈ b.todo → P)
    (hclaiming : b.stage = .claiming d → P) (hbusy : ∀ e ∈ b.busy, e.document = d → P)
    (hheld : d ∈ b.claims → P) : P := by
  cases h with
  | todo hd => exact htodo hd
  | claiming hd => exact hclaiming hd
  | busy e he hed => exact hbusy e he hed
  | held hd => exact hheld hd

theorem Place.look (h : b.Place d) (hst : b.stage = .looking ∨ b.stage = .waiting)
    (hb : b.claims = []) (htodo : b'.todo = b.todo) (hbusy : b'.busy = (sweep m b.busy).2.1)
    (hclaims : b'.claims = (sweep m b.busy).2.2) : b'.Place d ∨ LetsGo m b b' d := by
  refine h.pass (fun hd => .inl (.todo (htodo ▸ hd))) (fun hd => ?_) (fun e he hed => ?_)
    (fun hd => ?_)
  · obtain hst | hst := hst <;> rw [hst] at hd <;> cases hd
  · subst hed
    cases fate_of_mem m b.busy he with
    | claimed hc =>
      rw [← hclaims] at hc
      exact .inl (.held hc)
    | covered hfree hle => exact .inr (.covered e he rfl hfree hle)
    | busy s _ hs =>
      rw [← hbusy] at hs
      exact .inl (.busy _ hs rfl)
  · rw [hb] at hd
    cases hd

/-- **What a move makes of a document.**  It is still somewhere in the batch, or the batch has let
go of it. -/
theorem Moves.place (hm : Moves fired answer m b m' b' ev) (hb : b.Sound) (h : b.Place d) :
    b'.Place d ∨ LetsGo m b b' d := by
  cases hm with
  | seize hst hready => exact h.look hst (hb.claims_of_looking hst).1 rfl rfl hready.symm
  | settle hst hready hbusy =>
    have hcl := (hb.claims_of_looking hst).1
    exact h.look hst hcl rfl hbusy.symm (hcl.trans hready.symm)
  | quit hst hready _ _ | wait hst hready _ _ =>
    have hcl := (hb.claims_of_looking hst).1
    exact h.look hst hcl rfl rfl (hcl.trans hready.symm)
  | @visit x rest hst htodo _ =>
    refine .inl (h.pass (fun hd => ?_) (fun hd => ?_) (fun e he hed => .busy e he hed)
      fun hd => .held hd)
    · rw [htodo] at hd
      obtain rfl | hd := List.mem_cons.mp hd
      · exact .claiming rfl
      · exact .todo hd
    · rw [hst] at hd
      cases hd
  | @defer x s hst _ =>
    refine .inl (h.pass (fun hd => .todo hd) (fun hd => ?_)
      (fun e he hed => .busy e (List.mem_append_left _ he) hed) fun hd => .held hd)
    rw [hst] at hd
    cases hd
    exact .busy _ (List.mem_append_right _ List.mem_cons_self) rfl
  | @claim x hst _ =>
    refine .inl (h.pass (fun hd => .todo hd) (fun hd => ?_) (fun e he hed => .busy e he hed)
      fun hd => ?_)
    · rw [hst] at hd
      cases hd
      exact .held List.mem_cons_self
    · rw [hb.claims_of_visiting (.inr ⟨_, hst⟩)] at hd
      cases hd
  | @release panic x rest hst hcl =>
    refine h.pass (fun hd => .inl (.todo hd)) (fun hd => .inl (.claiming hd))
      (fun e he hed => .inl (.busy e he hed)) fun hd => ?_
    by_cases hin : d ∈ rest
    · exact .inl (.held hin)
    · exact .inr (.dropped hd hin)
  | finish hst _ _ | turn hst _ _ | giveUp hst _ _ | enter hst | leaveLast hst _ | leave hst _
  | panic hst _ | unwind hst _ | resume hst _ =>
    refine .inl (h.pass (fun hd => .todo hd) (fun hd => ?_) (fun e he hed => .busy e he hed)
      fun hd => .held hd)
    rw [hst] at hd
    cases hd

/-- where a busy entry comes from -/
inductive Origin (m' : InFlight) (b : Batch) (e' : BusyEntry) : Prop where
  | kept : e' ∈ b.busy → Origin m' b e'
  | renewed (e : BusyEntry) (s : Stamp) : e ∈ b.busy → (e.document.id, s) ∈ m' →
      e' = { e with covered := max e.covered s } → Origin m' b e'
  | deferred (d : UnsavedDocument) (s : Stamp) : b.stage = .claiming d → (d.id, s) ∈ m' →
      e' = ⟨d, s⟩ → Origin m' b e'

theorem origin_of_sweep {e' : BusyEntry} (h : e' ∈ (sweep m b.busy).2.1) :
    Origin (sweep m b.busy).1 b e' := by
  obtain ⟨e, he, s, hs, rfl⟩ := exists_of_mem_busy h
  exact .renewed e s he hs rfl

/-- **What is remembered for a busy document was in flight.** -/
theorem Moves.origin (hm : Moves fired answer m b m' b' ev) {e' : BusyEntry}
    (he' : e' ∈ b'.busy) : Origin m' b e' := by
  cases hm with
  | seize _ _ => exact origin_of_sweep he'
  | quit _ hready _ _ | wait _ hready _ _ =>
    have h := origin_of_sweep he'
    rw [sweep_of_none_claimed hready] at h
    exact h
  | settle _ _ _ => cases he'
  | @defer d s hst hs =>
    obtain he' | he' := List.mem_append.mp he'
    · exact .kept he'
    · obtain rfl := List.mem_singleton.mp he'
      exact .deferred d s hst (InFlight.mem_of_stamp? hs) rfl
  | finish _ _ _ | turn _ _ _ | giveUp _ _ _ | visit _ _ _ | claim _ _ | enter _ | leaveLast _ _
  | leave _ _ | panic _ _ | release _ _ | unwind _ _ | resume _ _ => exact .kept he'

end

end Batch

namespace Execution

open Claim

variable {index : IndexId} {E : Batches index}

/-- since a moment a claim over a document at a stamp or a newer one was alive -/
def Glimpsed (E : Batches index) (t₀ t : Nat) (d : DocumentId) (s : Stamp) (c : Claim) : Prop :=
  c.document.id = d ∧ s ≤ c.document.stamp ∧ ∃ u, t₀ < u ∧ u ≤ t ∧ c.LiveAt E u

theorem Glimpsed.mono {t₀ t u : Nat} {d : DocumentId} {s : Stamp} {c : Claim}
    (h : E.Glimpsed t₀ t d s c) (htu : t ≤ u) : E.Glimpsed t₀ u d s c := by
  obtain ⟨hid, hs, v, h1, h2, hv⟩ := h
  exact ⟨hid, hs, v, h1, Nat.le_trans h2 htu, hv⟩

theorem Glimpsed.le {t₀ t : Nat} {d : DocumentId} {s s' : Stamp} {c : Claim}
    (h : E.Glimpsed t₀ t d s c) (hs : s' ≤ s) : E.Glimpsed t₀ t d s' c :=
  ⟨h.1, Nat.le_trans hs h.2.1, h.2.2⟩

theorem exists_glimpsed {t₀ t : Nat} {d : DocumentId} {s : Stamp} (ht : t₀ < t)
    (h : (d, s) ∈ E.cells t) : ∃ c, E.Glimpsed t₀ t d s c := by
  obtain ⟨j, x, hj, rfl, rfl⟩ := exists_holds h
  obtain ⟨c, rfl, rfl, hc⟩ := hj.exists_claim
  exact ⟨c, rfl, Nat.le_refl _, t, ht, Nat.le_refl t, hc⟩

theorem Glimpsed.ended {t₀ t : Nat} {d : DocumentId} {s : Stamp} {c : Claim}
    (h : E.Glimpsed t₀ t d s c) (hfree : (E.cells t).stamp? d = none) : c.EndedBefore E t := by
  obtain ⟨rfl, _, u, _, hut, hu⟩ := h
  exact (hu.later hut).resolve_left fun hc => hc.holds.stamp?_ne_none hfree

/-- since a moment a claim over a document at its stamp or a newer one was alive, and it has
ended -/
def Settled (E : Batches index) (t₀ t : Nat) (d : UnsavedDocument) : Prop :=
  ∃ c, E.Glimpsed t₀ t d.id d.stamp c ∧ c.EndedBefore E t

/-- what a batch that came in at a moment has made of its documents -/
structure Traced (E : Batches index) (t₀ t : Nat) (documents : List UnsavedDocument)
    (b : Batch) : Prop where
  glimpsed : ∀ e ∈ b.busy, ∃ c, E.Glimpsed t₀ t e.document.id e.covered c
  placed : ∀ d ∈ documents, b.Place d ∨ E.Settled t₀ t d

section
variable {t₀ t i : Nat} {documents : List UnsavedDocument} {b : Batch}

theorem Settled.succ {d : UnsavedDocument} (h : E.Settled t₀ t d) : E.Settled t₀ (t + 1) d := by
  obtain ⟨c, hg, hc⟩ := h
  exact ⟨c, hg.mono (Nat.le_succ t), hc.mono (Nat.le_succ t)⟩

theorem Traced.stay (h : E.Traced t₀ t documents b) : E.Traced t₀ (t + 1) documents b := by
  refine ⟨fun e he => ?_, fun d hd => (h.placed d hd).imp_right Settled.succ⟩
  obtain ⟨c, hc⟩ := h.glimpsed e he
  exact ⟨c, hc.mono (Nat.le_succ t)⟩

theorem Traced.settled (h : E.Traced t₀ t documents b) (ht : t₀ < t) {fired : Bool}
    {answer : Answering} {q : Progress InFlight Batch} (hm : E.Moves t i b fired answer q)
    {d : UnsavedDocument} (hd : Batch.LetsGo (E.cells t) b q.self d) :
    E.Settled t₀ (t + 1) d := by
  cases hd with
  | dropped hd hd' =>
    have hholds : E.Holds t i d := ⟨b, hm.proc, hd⟩
    obtain ⟨c, rfl, rfl, hc⟩ := hholds.exists_claim
    refine ⟨c, ⟨rfl, Nat.le_refl _, t, ht, Nat.le_succ t, hc⟩, ?_⟩
    refine (hc.later (Nat.le_succ t)).resolve_left fun hc' => ?_
    obtain ⟨b', hb', hin⟩ := hc'.holds
    obtain rfl : q.self = b' := Option.some.inj (hm.self_succ.symm.trans hb')
    exact hd' hin
  | covered e he hed hfree hle =>
    subst hed
    obtain ⟨c, hc⟩ := h.glimpsed e he
    have hsettled : E.Settled t₀ t e.document := ⟨c, hc.le hle, hc.ended hfree⟩
    exact hsettled.succ

theorem Traced.move (h : E.Traced t₀ t documents b) (ht : t₀ < t) {fired : Bool}
    {answer : Answering} {q : Progress InFlight Batch} (hm : E.Moves t i b fired answer q) :
    E.Traced t₀ (t + 1) documents q.self := by
  have hseen {d : DocumentId} {s : Stamp} (hs : (d, s) ∈ E.cells (t + 1)) :
      ∃ c, E.Glimpsed t₀ (t + 1) d s c := exists_glimpsed (Nat.lt_succ_of_lt ht) hs
  refine ⟨fun e' he' => ?_, fun d hd => ?_⟩
  · cases hm.batch.origin he' with
    | kept he => exact h.stay.glimpsed e' he
    | renewed e s he hs heq =>
      subst heq
      -- the newer of what was remembered and what is seen now
      obtain hle | hle := Nat.le_total e.covered s
      · obtain ⟨c, hc⟩ := hseen hs
        exact ⟨c, hc.le (Nat.max_le.mpr ⟨hle, Nat.le_refl s⟩)⟩
      · obtain ⟨c, hc⟩ := h.stay.glimpsed e he
        exact ⟨c, hc.le (Nat.max_le.mpr ⟨Nat.le_refl _, hle⟩)⟩
    | deferred d s _ hs heq =>
      subst heq
      exact hseen hs
  · obtain hp | hp := h.placed d hd
    · exact (hm.batch.place (batch_sound hm.proc) hp).imp_right (h.settled ht hm)
    · exact .inr hp.succ

theorem Enters.traced (h0 : E.Enters t₀ i (.ofDocuments index documents)) (ht : t₀ < t) :
    ∃ b, E.proc? t i = some b ∧ E.Traced t₀ t documents b := by
  induction t, (show t₀ + 1 ≤ t from ht) using Nat.le_induction with
  | base =>
    refine ⟨_, h0.proc_succ, fun e he => ?_, fun d hd => .inl (.todo hd)⟩
    cases he
  | succ t ht' ih =>
    obtain ⟨b, hb, hp⟩ := ih ht'
    obtain hb' | ⟨fired, answer, q, hm⟩ := Execution.proc_succ hb
    · exact ⟨b, hb', hp.stay⟩
    · exact ⟨_, hm.self_succ, hp.move ht' hm⟩

end

end Execution

end IndexCoordinator
