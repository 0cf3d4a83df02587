import IndexCoordinator.Proofs.Update.Claims

/-!
# The life of a claim

A `Claim` is a document that a batch holds in flight from a moment on.  In time:

* `Claim.LiveAt`          the holder has kept the document ever since;
* `Claim.IndexedBefore`   while it lived, storage finished the call of its holder for its document;
* `Execution.Holds.exists_claim`   what a batch holds, it holds by a claim;
* `Claim.LiveAt.fate`     a live claim waits for its call, was indexed, or its batch unwinds;
* `Claim.LostBefore`      while it lived, a call of its holder panicked;
* `Claim.LiveAt.succ_or_ended`   a claim ends only after its document was indexed, or after a call
                          of its holder panicked.
-/

namespace IndexCoordinator

namespace Batch

/-- it drops its claims because storage panicked -/
def Unwinding (b : Batch) : Prop := ∃ p, b.stage = .releasing (some p)

section
variable {fired : Bool} {answer : Answering} {m m' : InFlight} {b b' : Batch} {ev : List Event}

theorem not_unwinding {s : BatchStage} (hst : b.stage = s) (hs : ∀ p, s ≠ .releasing (some p)) :
    ¬ b.Unwinding := by
  rintro ⟨p, hp⟩
  exact hs p (hst.symm.trans hp)

theorem unindexed_eq_nil {s : Option PanicPayload} (hst : b.stage = .releasing s) :
    b.unindexed = [] := by
  unfold unindexed
  rw [hst]

theorem Moves.claimed (hm : Moves fired answer m b m' b' ev) (hb : b.Sound) {d : UnsavedDocument}
    (hd : d ∈ b'.claims) :
    d ∈ b'.unindexed ∨ b'.Unwinding ∨
      d ∈ b.claims ∧ ¬ b.Unwinding ∧ (d ∈ b.unindexed → (∃ rest, b.stage = .indexing d rest) ∧
        answer (.indexUnsaved b.index d) = .returned ()) := by
  cases hm with
  | claim hst _ => exact .inl hd
  | seize hst _ => exact .inl hd
  | @enter x rest hst =>
    by_cases hx : d ∈ x :: rest
    · exact .inl hx
    · refine .inr (.inr ⟨hd, not_unwinding hst nofun, fun hu => ?_⟩)
      unfold unindexed at hu
      rw [hst] at hu
      exact absurd hu hx
  | @leaveLast x hst ha =>
    refine .inr (.inr ⟨hd, not_unwinding hst nofun, fun hu => ?_⟩)
    unfold unindexed at hu
    rw [hst] at hu
    obtain rfl := List.mem_singleton.mp hu
    exact ⟨⟨[], hst⟩, ha⟩
  | @leave x x' rest hst ha =>
    by_cases hx : d ∈ x' :: rest
    · exact .inl hx
    · refine .inr (.inr ⟨hd, not_unwinding hst nofun, fun hu => ?_⟩)
      unfold unindexed at hu
      rw [hst] at hu
      obtain rfl | hu := List.mem_cons.mp hu
      · exact ⟨⟨_, hst⟩, ha⟩
      · exact absurd hu hx
  | @panic x rest p hst _ => exact .inr (.inl ⟨p, rfl⟩)
  | @release panic x rest hst hcl =>
    cases panic with
    | some p => exact .inr (.inl ⟨p, hst⟩)
    | none =>
      refine .inr (.inr ⟨?_, not_unwinding hst nofun, fun hu => ?_⟩)
      · rw [hcl]
        exact List.mem_cons_of_mem _ hd
      · rw [unindexed_eq_nil hst] at hu
        cases hu
  | finish hst _ _ | giveUp hst _ _ | turn hst _ _ | visit hst _ _ =>
    rw [hb.claims_of_visiting (.inl hst)] at hd
    cases hd
  | defer hst _ =>
    rw [hb.claims_of_visiting (.inr ⟨_, hst⟩)] at hd
    cases hd
  | unwind _ hcl | resume _ hcl =>
    rw [hcl] at hd
    cases hd
  | settle hst _ _ | quit hst _ _ _ | wait hst _ _ _ =>
    rw [(hb.claims_of_looking hst).1] at hd
    cases hd

theorem Moves.dropped (hm : Moves fired answer m b m' b' ev) (hb : b.Sound) {d : UnsavedDocument}
    (hd : d ∈ b.claims) (hd' : d ∉ b'.claims) : b.unindexed = [] := by
  cases hm with
  | release hst _ => exact unindexed_eq_nil hst
  | claim hst _ =>
    rw [hb.claims_of_visiting (.inr ⟨_, hst⟩)] at hd
    cases hd
  | seize hst _ =>
    rw [(hb.claims_of_looking hst).1] at hd
    cases hd
  | _ => exact absurd hd hd'

theorem Moves.unwinding (hm : Moves fired answer m b m' b' ev) (hb : ¬ b.Unwinding)
    (hb' : b'.Unwinding) :
    ∃ d rest p, b.stage = .indexing d rest ∧
      answer (.indexUnsaved b.index d) = .panicked p := by
  obtain ⟨p', hp'⟩ := hb'
  cases hm with
  | panic hst ha => exact ⟨_, _, _, hst, ha⟩
  | release hst _ => exact absurd ⟨p', hp'⟩ hb
  | _ => cases hp'

theorem Moves.claims_of_unwinding (hm : Moves fired answer m b m' b' ev) (hu : b'.Unwinding) :
    b'.claims ⊆ b.claims := by
  obtain ⟨p, hp⟩ := hu
  cases hm with
  | panic _ _ => exact List.Subset.refl _
  | release _ hcl =>
    rw [hcl]
    exact List.subset_cons_self _ _
  | _ => cases hp

theorem indexing_of_next {index : IndexId} {d : UnsavedDocument}
    {k : Outcome Unit → Progress InFlight Batch}
    (h : b.next fired m = .call (.indexUnsaved index d) k) :
    ∃ rest, b.stage = .indexing d rest ∧ index = b.index := by
  unfold next at h
  cases hst : b.stage with
  | indexing x rest =>
    rw [hst] at h
    cases h
    exact ⟨rest, rfl, rfl⟩
  | visiting =>
    cases htodo : b.todo with
    | nil =>
      rw [hst, htodo] at h
      cases h
    | cons x rest =>
      rw [hst, htodo] at h
      cases fired <;> cases h
  | claiming x =>
    cases hs : m.stamp? x.id <;> (simp only [hst, hs] at h; cases h)
  | releasing panic =>
    cases hcl : b.claims with
    | cons x rest =>
      rw [hst, hcl] at h
      cases h
    | nil =>
      rw [hst, hcl] at h
      cases panic <;> cases h
  | waiting =>
    simp only [hst] at h
    split at h <;> cases h
  | entering x rest | looking | ended r =>
    rw [hst] at h
    cases h

end

end Batch

/-- a batch holds a document in flight from the moment after `taken` on -/
structure Claim where
  holder : Nat
  document : UnsavedDocument
  taken : Nat

namespace Execution

variable {index : IndexId} {E : Batches index}

/-- a batch holds a document in flight -/
def Holds (E : Batches index) (t j : Nat) (d : UnsavedDocument) : Prop :=
  ∃ b, E.proc? t j = some b ∧ d ∈ b.claims

/-- storage never panics -/
def Quiet (E : Batches index) : Prop :=
  ∀ t i d p, ¬ E.CallEnds t i (.indexUnsaved index d) (.panicked p)

theorem batch_sound {t i : Nat} {b : Batch} (h : E.proc? t i = some b) : b.Sound :=
  (reachable t).claimed.sound b (List.mem_of_getElem? h)

theorem Moves.batch {t i : Nat} {b : Batch} {fired : Bool} {answer : Answering}
    {q : Progress InFlight Batch} (h : E.Moves t i b fired answer q) :
    Batch.Moves fired answer (E.cells t) b (E.cells (t + 1)) q.self q.events := by
  have hq := (Batch.moves_of_next h.leads).1
  have hcells : E.cells (t + 1) = q.shared := congrArg Run.shared h.run
  rw [hcells]
  exact hq

theorem batch_of_succ {t i : Nat} {b' : Batch} (h : E.proc? (t + 1) i = some b') :
    E.proc? t i = some b' ∨
    (∃ b fired answer q, E.Moves t i b fired answer q ∧ q.self = b') ∨
    ∃ documents, b' = .ofDocuments index documents := by
  obtain h | h | ⟨_, h⟩ | ⟨j, b, fired, answer, q, hm, hs, _⟩ := proc_of_succ h
  · exact .inl h
  · exact .inr (.inl h)
  · exact .inr (.inr h)
  · rw [(Batch.moves_of_next hm.leads).2] at hs
    cases hs

theorem index_eq {t i : Nat} {b : Batch} (h : E.proc? t i = some b) : b.index = index := by
  induction t generalizing b with
  | zero => cases h
  | succ t ih =>
    obtain h | ⟨b₀, fired, answer, q, hm, rfl⟩ | ⟨documents, rfl⟩ := batch_of_succ h
    · exact ih h
    · rw [hm.batch.index_eq]
      exact ih hm.proc
    · rfl

theorem callEnds_of_indexing {t i : Nat} {b : Batch} {fired : Bool} {answer : Answering}
    {q : Progress InFlight Batch} (h : E.Moves t i b fired answer q) {d : UnsavedDocument}
    {rest : List UnsavedDocument} (hst : b.stage = .indexing d rest) :
    E.CallEnds t i (.indexUnsaved index d) (answer (.indexUnsaved index d)) := by
  obtain rfl := index_eq h.proc
  have hn : b.next fired (E.cells t) = .awaiting (.indexUnsaved b.index d)
      fun a => { shared := E.cells t, self := b.afterIndexing rest a } := by
    unfold Batch.next
    rw [hst]
  exact ⟨b, fired, answer, _, h.proc, h.cue, hn, rfl⟩

theorem CallEnds.indexing {t i : Nat} {index' : IndexId} {d : UnsavedDocument} {a : Outcome Unit}
    (h : E.CallEnds t i (.indexUnsaved index' d) a) :
    ∃ b fired answer q, E.Moves t i b fired answer q ∧ (∃ rest, b.stage = .indexing d rest) ∧
      index' = index ∧ answer (.indexUnsaved index d) = a := by
  obtain ⟨b, fired, answer, k, hm, hn, ha⟩ := h.moves
  have hi := index_eq hm.proc
  obtain ⟨rest, hst, rfl⟩ := Batch.indexing_of_next hn
  subst hi
  exact ⟨b, fired, answer, _, hm, ⟨rest, hst⟩, rfl, ha⟩

/-! ## the map and what is held -/

theorem mem_liveClaims {t : Nat} {d : UnsavedDocument} :
    d ∈ (E.run t).liveClaims ↔ ∃ j, E.Holds t j d := by
  unfold Run.liveClaims
  rw [List.mem_flatMap]
  constructor
  · rintro ⟨b, hb, hd⟩
    obtain ⟨j, hj⟩ := List.mem_iff_getElem?.mp hb
    exact ⟨j, b, hj, hd⟩
  · rintro ⟨j, b, hj, hd⟩
    exact ⟨b, List.mem_of_getElem? hj, hd⟩

theorem exists_holds {t : Nat} {d : DocumentId} {s : Stamp} (h : (d, s) ∈ E.cells t) :
    ∃ j x, E.Holds t j x ∧ x.id = d ∧ x.stamp = s := by
  obtain ⟨x, hx, hxe⟩ := List.mem_map.mp ((reachable t).claimed.entries.mem_iff.mp h)
  obtain ⟨j, hj⟩ := mem_liveClaims.mp hx
  cases hxe
  exact ⟨j, x, hj, rfl, rfl⟩

theorem Holds.stamp?_ne_none {t j : Nat} {x : UnsavedDocument} (h : E.Holds t j x) :
    (E.cells t).stamp? x.id ≠ none := by
  intro hnone
  have hx : x.entry ∈ E.cells t :=
    (reachable t).claimed.entries.mem_iff.mpr (List.mem_map_of_mem (mem_liveClaims.mpr ⟨j, h⟩))
  exact InFlight.stamp?_eq_none.mp hnone x.entry hx rfl

end Execution

namespace Claim

open Execution

variable {index : IndexId} {E : Batches index} {c : Claim}

/-- the document was taken and has been held ever since -/
structure LiveAt (c : Claim) (E : Batches index) (t : Nat) : Prop where
  fresh : ¬ E.Holds c.taken c.holder c.document
  after : c.taken < t
  kept : ∀ u, c.taken < u → u ≤ t → E.Holds u c.holder c.document

/-- while the claim lived, storage finished the call for its document -/
def IndexedBefore (c : Claim) (E : Batches index) (t : Nat) : Prop :=
  ∃ u < t, c.LiveAt E u ∧ E.CallEnds u c.holder (.indexUnsaved index c.document) (.returned ())

theorem IndexedBefore.mono {t u : Nat} (h : c.IndexedBefore E t) (htu : t ≤ u) :
    c.IndexedBefore E u := by
  obtain ⟨v, hv, hc⟩ := h
  exact ⟨v, by omega, hc⟩

theorem LiveAt.holds {t : Nat} (h : c.LiveAt E t) : E.Holds t c.holder c.document :=
  h.kept t h.after (Nat.le_refl t)

theorem LiveAt.succ {t : Nat} (h : c.LiveAt E t) (hs : E.Holds (t + 1) c.holder c.document) :
    c.LiveAt E (t + 1) := by
  refine ⟨h.fresh, Nat.lt_succ_of_lt h.after, fun u h1 h2 => ?_⟩
  obtain h2 | rfl := Nat.le_succ_iff.mp h2
  · exact h.kept u h1 h2
  · exact hs

theorem LiveAt.pred {t : Nat} (h : c.LiveAt E (t + 1)) (hc : c.taken ≠ t) : c.LiveAt E t := by
  have := h.after
  exact ⟨h.fresh, by omega, fun u h1 h2 => h.kept u h1 (by omega)⟩

end Claim

namespace Execution

variable {index : IndexId} {E : Batches index}

theorem Holds.exists_claim {t j : Nat} {d : UnsavedDocument} (h : E.Holds t j d) :
    ∃ c : Claim, c.holder = j ∧ c.document = d ∧ c.LiveAt E t := by
  induction t with
  | zero =>
    obtain ⟨b, hb, _⟩ := h
    cases hb
  | succ t ih =>
    by_cases hp : E.Holds t j d
    · obtain ⟨c, rfl, rfl, hc⟩ := ih hp
      exact ⟨c, rfl, rfl, hc.succ h⟩
    · refine ⟨⟨j, d, t⟩, rfl, rfl, hp, Nat.lt_succ_self t, fun u h1 h2 => ?_⟩
      obtain rfl : u = t + 1 := Nat.le_antisymm h2 h1
      exact h

end Execution

namespace Claim

open Execution

variable {index : IndexId} {E : Batches index} {c : Claim}

/-- **What becomes of a live claim.**  The call for its document is still to come, or has been
finished, or the batch is dropping its claims after a panic. -/
theorem LiveAt.fate {t : Nat} (h : c.LiveAt E t) :
    (∃ b, E.proc? t c.holder = some b ∧ (c.document ∈ b.unindexed ∨ b.Unwinding)) ∨
      c.IndexedBefore E t := by
  induction t with
  | zero => exact absurd h.after (Nat.not_lt_zero _)
  | succ t ih =>
    obtain ⟨b', hb', hd⟩ := h.holds
    -- the claim is older than the moment `t`, so the induction hypothesis applies
    have hold (hp : E.Holds t c.holder c.document) : c.LiveAt E t :=
      h.pred fun e => h.fresh (e ▸ hp)
    obtain hb | ⟨b, fired, answer, q, hm, rfl⟩ | ⟨documents, rfl⟩ := batch_of_succ hb'
    · obtain ⟨b, hb2, hf⟩ | hi := ih (hold ⟨b', hb, hd⟩)
      · obtain rfl : b = b' := Option.some.inj (hb2.symm.trans hb)
        exact .inl ⟨b, hb', hf⟩
      · exact .inr (hi.mono (Nat.le_succ t))
    · obtain hu | hu | ⟨hd0, hnu, hidx⟩ := hm.batch.claimed (batch_sound hm.proc) hd
      · exact .inl ⟨_, hb', .inl hu⟩
      · exact .inl ⟨_, hb', .inr hu⟩
      · have hlive := hold ⟨b, hm.proc, hd0⟩
        obtain ⟨b₂, hb2, hf⟩ | hi := ih hlive
        · obtain rfl : b = b₂ := Option.some.inj (hm.proc.symm.trans hb2)
          obtain hf | hf := hf
          · obtain ⟨⟨rest, hst⟩, ha⟩ := hidx hf
            have hend := callEnds_of_indexing hm hst
            rw [index_eq hm.proc] at ha
            rw [ha] at hend
            exact .inr ⟨t, Nat.lt_succ_self t, hlive, hend⟩
          · exact absurd hf hnu
        · exact .inr (hi.mono (Nat.le_succ t))
    · cases hd

/-- while the claim lived, a call of its holder panicked -/
def LostBefore (c : Claim) (E : Batches index) (t : Nat) : Prop :=
  ∃ u < t, c.LiveAt E u ∧
    ∃ d p, E.CallEnds u c.holder (.indexUnsaved index d) (.panicked p)

theorem LostBefore.mono {t u : Nat} (h : c.LostBefore E t) (htu : t ≤ u) : c.LostBefore E u := by
  obtain ⟨v, hv, hc⟩ := h
  exact ⟨v, Nat.lt_of_lt_of_le hv htu, hc⟩

/-- the document was indexed, or a call of the holder panicked -/
def EndedBefore (c : Claim) (E : Batches index) (t : Nat) : Prop :=
  c.IndexedBefore E t ∨ c.LostBefore E t

theorem EndedBefore.mono {t u : Nat} (h : c.EndedBefore E t) (htu : t ≤ u) : c.EndedBefore E u :=
  h.imp (fun h => h.mono htu) fun h => h.mono htu

/-- what a batch still holds while it unwinds, it held when storage panicked -/
theorem LiveAt.lost_of_unwinding {t : Nat} (h : c.LiveAt E t) {b : Batch}
    (hb : E.proc? t c.holder = some b) (hu : b.Unwinding) : c.LostBefore E t := by
  induction t generalizing b with
  | zero => cases hb
  | succ t ih =>
    obtain ⟨b', hb', hd⟩ := h.holds
    obtain rfl : b = b' := Option.some.inj (hb.symm.trans hb')
    have hold (hp : E.Holds t c.holder c.document) : c.LiveAt E t :=
      h.pred fun e => h.fresh (e ▸ hp)
    obtain hb0 | ⟨b₀, fired, answer, q, hm, rfl⟩ | ⟨documents, rfl⟩ := batch_of_succ hb
    · exact (ih (hold ⟨b, hb0, hd⟩) hb0 hu).mono (Nat.le_succ t)
    · have hlive := hold ⟨b₀, hm.proc, hm.batch.claims_of_unwinding hu hd⟩
      by_cases hu0 : b₀.Unwinding
      · exact (ih hlive hm.proc hu0).mono (Nat.le_succ t)
      · obtain ⟨d, rest, p, hst, ha⟩ := hm.batch.unwinding hu0 hu
        have hend := callEnds_of_indexing hm hst
        rw [index_eq hm.proc] at ha
        rw [ha] at hend
        exact ⟨t, Nat.lt_succ_self t, hlive, d, p, hend⟩
    · cases hd

/-- **A claim that ends was indexed or lost.** -/
theorem LiveAt.succ_or_ended {t : Nat} (h : c.LiveAt E t) :
    c.LiveAt E (t + 1) ∨ c.EndedBefore E t := by
  obtain ⟨b, hb, hd⟩ := h.holds
  obtain hb' | ⟨fired, answer, q, hm⟩ := proc_succ hb
  · exact .inl (h.succ ⟨b, hb', hd⟩)
  · by_cases hd' : c.document ∈ q.self.claims
    · exact .inl (h.succ ⟨_, hm.self_succ, hd'⟩)
    · right
      have hnone := hm.batch.dropped (batch_sound hb) hd hd'
      obtain ⟨b₂, hb2, hf⟩ | hi := h.fate
      · obtain rfl : b = b₂ := Option.some.inj (hb.symm.trans hb2)
        obtain hf | hf := hf
        · rw [hnone] at hf
          cases hf
        · exact .inr (h.lost_of_unwinding hb hf)
      · exact .inl hi

theorem LiveAt.later {u t : Nat} (h : c.LiveAt E u) (hut : u ≤ t) :
    c.LiveAt E t ∨ c.EndedBefore E t := by
  induction t, hut using Nat.le_induction with
  | base => exact .inl h
  | succ t _ ih =>
    obtain hc | hc := ih
    · exact hc.succ_or_ended.imp_right fun hc => hc.mono (Nat.le_succ t)
    · exact .inr (hc.mono (Nat.le_succ t))

theorem EndedBefore.indexed {t : Nat} (h : c.EndedBefore E t) (hE : E.Quiet) :
    c.IndexedBefore E t := by
  refine h.resolve_right ?_
  rintro ⟨u, _, _, d, p, hp⟩
  exact hE u _ d p hp

end Claim

end IndexCoordinator
