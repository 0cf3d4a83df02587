import IndexCoordinator.Proofs.Execution
import IndexCoordinator.Proofs.Update.InFlight

/-!
# The moves of a batch

Everything that one move of a batch can do, with the guard of every case: `Batch.Moves` relates the
map, the batch, the new map, the new batch and the events, and `Batch.moves_of_next` says that
`Batch.next` does nothing else.  `Batch.Sound` is what every batch keeps by itself: which documents
it holds at which stage, and when it has nothing left to do.
-/

namespace IndexCoordinator

namespace Batch

inductive Moves (fired : Bool) (answer : Answering) (m : InFlight) (b : Batch) :
    InFlight → Batch → List Event → Prop where
  | finish : b.stage = .visiting → b.todo = [] → b.busy = [] →
      Moves fired answer m b m { b with stage := .ended .completed } []
  | turn : b.stage = .visiting → b.todo = [] → b.busy ≠ [] →
      Moves fired answer m b m { b with stage := .looking } []
  | giveUp : b.stage = .visiting → b.todo ≠ [] → fired = true →
      Moves fired answer m b m { b with stage := .ended .cancelled } []
  | visit {d : UnsavedDocument} {rest : List UnsavedDocument} :
      b.stage = .visiting → b.todo = d :: rest → fired = false →
      Moves fired answer m b m { b with todo := rest, stage := .claiming d } []
  | defer {d : UnsavedDocument} {s : Stamp} : b.stage = .claiming d → m.stamp? d.id = some s →
      Moves fired answer m b m { b with busy := b.busy ++ [⟨d, s⟩], stage := .visiting } []
  | claim {d : UnsavedDocument} : b.stage = .claiming d → m.stamp? d.id = none →
      Moves fired answer m b (m.insert d.id d.stamp)
        { b with claims := [d], stage := .entering d [] } []
  | enter {d : UnsavedDocument} {rest : List UnsavedDocument} : b.stage = .entering d rest →
      Moves fired answer m b m { b with stage := .indexing d rest }
        [.entered (.indexUnsaved b.index d)]
  | leaveLast {d : UnsavedDocument} : b.stage = .indexing d [] →
      answer (.indexUnsaved b.index d) = .returned () →
      Moves fired answer m b m { b with stage := .releasing none }
        [.left (.indexUnsaved b.index d) .completed]
  | leave {d d' : UnsavedDocument} {rest : List UnsavedDocument} :
      b.stage = .indexing d (d' :: rest) → answer (.indexUnsaved b.index d) = .returned () →
      Moves fired answer m b m { b with stage := .entering d' rest }
        [.left (.indexUnsaved b.index d) .completed]
  | panic {d : UnsavedDocument} {rest : List UnsavedDocument} {p : PanicPayload} :
      b.stage = .indexing d rest → answer (.indexUnsaved b.index d) = .panicked p →
      Moves fired answer m b m { b with stage := .releasing (some p) }
        [.left (.indexUnsaved b.index d) .panicked]
  | release {panic : Option PanicPayload} {d : UnsavedDocument} {rest : List UnsavedDocument} :
      b.stage = .releasing panic → b.claims = d :: rest →
      Moves fired answer m b (m.erase d.id) { b with claims := rest } []
  | unwind {p : PanicPayload} : b.stage = .releasing (some p) → b.claims = [] →
      Moves fired answer m b m { b with stage := .ended (.unwound p) } []
  | resume : b.stage = .releasing none → b.claims = [] →
      Moves fired answer m b m { b with stage := .visiting } []
  | seize {d : UnsavedDocument} {ready : List UnsavedDocument} :
      b.stage = .looking ∨ b.stage = .waiting → (sweep m b.busy).2.2 = d :: ready →
      Moves fired answer m b (sweep m b.busy).1
        { b with busy := (sweep m b.busy).2.1, claims := d :: ready, stage := .entering d ready } []
  | settle : b.stage = .looking ∨ b.stage = .waiting → (sweep m b.busy).2.2 = [] →
      (sweep m b.busy).2.1 = [] →
      Moves fired answer m b m { b with busy := [], stage := .ended .completed } []
  | quit : b.stage = .looking ∨ b.stage = .waiting → (sweep m b.busy).2.2 = [] →
      (sweep m b.busy).2.1 ≠ [] → fired = true →
      Moves fired answer m b m
        { b with busy := (sweep m b.busy).2.1, stage := .ended .cancelled } []
  | wait : b.stage = .looking ∨ b.stage = .waiting → (sweep m b.busy).2.2 = [] →
      (sweep m b.busy).2.1 ≠ [] → fired = false →
      Moves fired answer m b m { b with busy := (sweep m b.busy).2.1, stage := .waiting } []

theorem moves_look {fired : Bool} {answer : Answering} {m : InFlight} {b : Batch}
    (h : b.stage = .looking ∨ b.stage = .waiting) :
    Moves fired answer m b (b.look fired m).1 (b.look fired m).2 [] := by
  have hm : (sweep m b.busy).2.2 = [] → (sweep m b.busy).1 = m := sweep_of_none_claimed
  have hseize := fun d ready => @Moves.seize fired answer m b d ready h
  have hsettle := @Moves.settle fired answer m b h
  have hquit := @Moves.quit fired answer m b h
  have hwait := @Moves.wait fired answer m b h
  unfold look
  generalize sweep m b.busy = r at hm hseize hsettle hquit hwait ⊢
  obtain ⟨m', busy, ready⟩ := r
  cases ready with
  | cons d ready => exact hseize d ready rfl
  | nil =>
    obtain rfl : m' = m := hm rfl
    cases busy with
    | nil => exact hsettle rfl rfl
    | cons e busy =>
      cases fired with
      | true => exact hquit rfl (List.cons_ne_nil _ _) rfl
      | false => exact hwait rfl (List.cons_ne_nil _ _) rfl

theorem moves_of_next {fired : Bool} {m : InFlight} {b : Batch} {answer : Answering}
    {q : Progress InFlight Batch} (h : (next fired m b).under answer = some q) :
    Moves fired answer m b q.shared q.self q.events ∧ q.spawned = [] := by
  obtain ⟨index, todo, busy, claims, stage⟩ := b
  cases stage with
  | visiting =>
    cases todo with
    | nil =>
      cases h
      cases busy with
      | nil => exact ⟨.finish rfl rfl rfl, rfl⟩
      | cons e busy => exact ⟨.turn rfl rfl (List.cons_ne_nil _ _), rfl⟩
    | cons d rest =>
      cases fired with
      | true =>
        cases h
        exact ⟨.giveUp rfl (List.cons_ne_nil _ _) rfl, rfl⟩
      | false =>
        cases h
        exact ⟨.visit rfl rfl rfl, rfl⟩
  | claiming d =>
    simp only [next] at h
    cases hs : m.stamp? d.id with
    | some s =>
      rw [hs] at h
      cases h
      exact ⟨.defer rfl hs, rfl⟩
    | none =>
      rw [hs] at h
      cases h
      exact ⟨.claim rfl hs, rfl⟩
  | entering d rest =>
    cases h
    exact ⟨.enter rfl, rfl⟩
  | indexing d rest =>
    simp only [next, Move.under_awaiting] at h
    cases ha : answer (.indexUnsaved index d) with
    | returned u =>
      rw [ha] at h
      cases h
      cases rest with
      | nil => exact ⟨.leaveLast rfl ha, rfl⟩
      | cons d' rest => exact ⟨.leave rfl ha, rfl⟩
    | panicked p =>
      rw [ha] at h
      cases h
      cases rest with
      | nil => exact ⟨.panic rfl ha, rfl⟩
      | cons d' rest => exact ⟨.panic rfl ha, rfl⟩
  | releasing panic =>
    cases claims with
    | cons d rest =>
      cases h
      exact ⟨.release rfl rfl, rfl⟩
    | nil =>
      cases panic with
      | some p =>
        cases h
        exact ⟨.unwind rfl rfl, rfl⟩
      | none =>
        cases h
        exact ⟨.resume rfl rfl, rfl⟩
  | looking =>
    cases h
    exact ⟨moves_look (.inl rfl), rfl⟩
  | waiting =>
    simp only [next] at h
    split at h
    · cases h
    · cases h
      exact ⟨moves_look (.inr rfl), rfl⟩
  | ended r => cases h

/-! ## what a batch keeps by itself -/

/-- the documents that a batch has claimed and not indexed yet -/
def unindexed (b : Batch) : List UnsavedDocument :=
  match b.stage with
  | .entering d rest => d :: rest
  | .indexing d rest => d :: rest
  | _ => []

/-- what a batch holds, and what is left of it, at its stages -/
def Sound (b : Batch) : Prop :=
  match b.stage with
  | .visiting | .claiming _ => b.claims = []
  | .entering d rest | .indexing d rest => d :: rest <:+ b.claims
  | .releasing _ => True
  | .looking | .waiting => b.claims = [] ∧ b.todo = []
  | .ended .completed => b.claims = [] ∧ b.todo = [] ∧ b.busy = []
  | .ended _ => b.claims = []

/-- a batch of one document that is indexed without a claim -/
structure Bare (b : Batch) : Prop where
  claims : b.claims = []
  todo : b.todo = []
  busy : b.busy = []
  unclaimed : ∀ d, b.stage ≠ .claiming d

theorem bare_single (index : IndexId) (document : UnsavedDocument) :
    (single index document).Bare := ⟨rfl, rfl, rfl, nofun⟩

theorem sound_ofDocuments (index : IndexId) (documents : List UnsavedDocument) :
    (ofDocuments index documents).Sound := rfl

theorem Sound.claims_of_visiting {b : Batch} (h : b.Sound)
    (hst : b.stage = .visiting ∨ ∃ d, b.stage = .claiming d) : b.claims = [] := by
  unfold Sound at h
  obtain hst | ⟨d, hst⟩ := hst <;> rw [hst] at h <;> exact h

theorem Sound.claims_of_looking {b : Batch} (h : b.Sound)
    (hst : b.stage = .looking ∨ b.stage = .waiting) : b.claims = [] ∧ b.todo = [] := by
  unfold Sound at h
  obtain hst | hst := hst <;> rw [hst] at h <;> exact h

theorem Sound.claims_of_result {b : Batch} (h : b.Sound) {r : BatchEnd}
    (hr : b.result? = some r) : b.claims = [] := by
  unfold Sound at h
  cases hst : b.stage with
  | ended r' =>
    rw [hst] at h
    cases r' with
    | completed => exact h.1
    | cancelled => exact h
    | unwound p => exact h
  | _ => simp [result?, hst] at hr

section
variable {fired : Bool} {answer : Answering} {m m' : InFlight} {b b' : Batch} {ev : List Event}

theorem Moves.index_eq (hm : Moves fired answer m b m' b' ev) : b'.index = b.index := by
  cases hm <;> rfl

theorem Moves.sound (hm : Moves fired answer m b m' b' ev) (h : b.Sound) : b'.Sound := by
  cases hm with
  | finish hst htodo hbusy => exact ⟨h.claims_of_visiting (.inl hst), htodo, hbusy⟩
  | turn hst htodo _ => exact ⟨h.claims_of_visiting (.inl hst), htodo⟩
  | giveUp hst _ _ | visit hst _ _ => exact h.claims_of_visiting (.inl hst)
  | defer hst _ => exact h.claims_of_visiting (.inr ⟨_, hst⟩)
  | claim hst _ => exact List.suffix_rfl
  | enter hst =>
    unfold Sound at h
    rw [hst] at h
    exact h
  | leaveLast hst _ => trivial
  | leave hst _ =>
    unfold Sound at h
    rw [hst] at h
    exact (List.suffix_cons _ _).trans h
  | panic hst _ => trivial
  | release hst _ =>
    show Sound { b with claims := _ }
    unfold Sound
    simp only [hst]
  | unwind hst hcl => exact hcl
  | resume hst hcl => exact hcl
  | seize hst _ => exact List.suffix_rfl
  | settle hst _ _ =>
    obtain ⟨hcl, htodo⟩ := h.claims_of_looking hst
    exact ⟨hcl, htodo, rfl⟩
  | quit hst _ _ _ => exact (h.claims_of_looking hst).1
  | wait hst _ _ _ => exact h.claims_of_looking hst

theorem Moves.bare (hm : Moves fired answer m b m' b' ev) (h : b.Bare) : b'.Bare ∧ m' = m := by
  obtain ⟨hclaims, htodo, hbusy, hfree⟩ := h
  cases hm with
  | giveUp _ hne _ => exact absurd htodo hne
  | visit _ hne _ => cases htodo.symm.trans hne
  | defer hst _ | claim hst _ => exact absurd hst (hfree _)
  | release _ hcl => cases hclaims.symm.trans hcl
  | seize _ hready =>
    rw [hbusy, sweep_nil] at hready
    cases hready
  | settle _ _ _ => exact ⟨⟨hclaims, htodo, rfl, nofun⟩, rfl⟩
  | quit _ _ hne _ | wait _ _ hne _ =>
    rw [hbusy, sweep_nil] at hne
    exact absurd rfl hne
  | finish _ _ _ | turn _ _ _ | enter _ | leaveLast _ _ | leave _ _ | panic _ _ | unwind _ _
  | resume _ _ => exact ⟨⟨hclaims, htodo, hbusy, nofun⟩, rfl⟩

end

end Batch

end IndexCoordinator
