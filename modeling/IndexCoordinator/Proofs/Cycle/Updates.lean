import IndexCoordinator.Proofs.Cycle.Openings
import IndexCoordinator.Proofs.Cycle.Requests
import IndexCoordinator.Proofs.Update.Claims

/-!
# Updates on a cycle

A call that updates documents looks up the update task of its index and is a batch from then on.
The batches for one index share a map of documents in flight, and nothing else touches it.

* `Work.Updates`        where such a call stands, with the task that it has found;
* `Execution.Admits`    an index may be updated, with `Execution.admits_of_task`;
* `Batch.Tally`         a map is exactly what some batches hold, no document twice;
* `Work.Flight`         what one move is to the map of an index and the batches for it;
* `Run.Reachable.tallies`   the map of an index is exactly what the batches for it hold;
* `Run.Tallies.countP_passes`   storage is inside at most one pass over a claimed document for an index.
-/

namespace IndexCoordinator

/-! ## batches that share a map -/

namespace Batch

/-- a map is what some batches hold, and no document stands in it twice -/
structure Tally (m : InFlight) (bs : List Batch) : Prop where
  held : ∀ b ∈ bs, b.Sound ∨ b.Bare
  single : m.Single
  entries : m.Perm ((bs.flatMap (·.claims)).map UnsavedDocument.entry)

section
variable {m m' : InFlight} {b b' : Batch} {bs bs' : List Batch}

theorem tally_nil : Tally [] [] := ⟨nofun, InFlight.single_nil, .refl _⟩

theorem Tally.perm (h : Tally m bs) (hp : bs.Perm bs') : Tally m bs' where
  held b hb := h.held b (hp.mem_iff.mpr hb)
  single := h.single
  entries := h.entries.trans ((hp.flatMap_right _).map _)

theorem tally_cons (hb : b.Sound ∨ b.Bare) (hclaims : b.claims = []) :
    Tally m (b :: bs) ↔ Tally m bs := by
  have hsame : (b :: bs).flatMap (·.claims) = bs.flatMap (·.claims) := by
    rw [List.flatMap_cons, hclaims, List.nil_append]
  constructor
  · intro h
    refine ⟨fun x hx => h.held x (List.mem_cons_of_mem _ hx), h.single, ?_⟩
    rw [← hsame]
    exact h.entries
  · intro h
    refine ⟨fun x hx => ?_, h.single, ?_⟩
    · obtain rfl | hx := List.mem_cons.mp hx
      · exact hb
      · exact h.held x hx
    · rw [hsame]
      exact h.entries

theorem Tally.move (h : Tally m (b :: bs)) {fired : Bool} {answer : Answering} {ev : List Event}
    (hm : Moves fired answer m b m' b' ev) : Tally m' (b' :: bs) := by
  have hothers : ∀ x ∈ bs, x.Sound ∨ x.Bare := fun x hx => h.held x (List.mem_cons_of_mem _ hx)
  have hentries := h.entries
  rw [List.flatMap_cons, List.map_append] at hentries
  have hnew : (b'.Sound ∨ b'.Bare) ∧ m'.Single ∧ m'.Perm (b'.claims.map UnsavedDocument.entry ++
      (bs.flatMap (·.claims)).map UnsavedDocument.entry) := by
    obtain hb | hb := h.held b List.mem_cons_self
    · exact ⟨.inl (hm.sound hb), hm.entries hb h.single hentries⟩
    · obtain ⟨hb', rfl⟩ := hm.bare hb
      rw [hb.claims] at hentries
      rw [hb'.claims]
      exact ⟨.inr hb', h.single, hentries⟩
  obtain ⟨hb', hsingle, hperm⟩ := hnew
  refine ⟨fun x hx => ?_, hsingle, ?_⟩
  · obtain rfl | hx := List.mem_cons.mp hx
    · exact hb'
    · exact hothers x hx
  · rw [List.flatMap_cons, List.map_append]
    exact hperm

/-- a batch is inside a call of storage for a document that it holds -/
def passes (d : DocumentId) (b : Batch) : Bool := b.isIndexing d && b.claims.any (·.id == d)

theorem Sound.passes (h : b.Sound) {d : DocumentId} (hd : b.isIndexing d = true) :
    b.passes d = true := by
  obtain ⟨x, hx, hid⟩ := h.claim_of_isIndexing hd
  rw [Batch.passes, hd, Bool.true_and]
  exact List.any_eq_true.mpr ⟨x, hx, by simp [hid]⟩

theorem Tally.countP_passes (h : Tally m bs) (d : DocumentId) : bs.countP (Batch.passes d) ≤ 1 := by
  have hnodup : ((bs.flatMap (·.claims)).map (·.id)).Nodup := by
    have hs : (((bs.flatMap (·.claims)).map UnsavedDocument.entry).map Prod.fst).Nodup :=
      h.single.perm h.entries
    rwa [List.map_map] at hs
  calc bs.countP (Batch.passes d)
    _ ≤ ((bs.flatMap (·.claims)).map (·.id)).count d := by
        refine countP_le_count fun b _ hp => ?_
        obtain ⟨x, hx, hid⟩ := List.any_eq_true.mp (Bool.and_eq_true _ _ ▸ hp).2
        exact ⟨x, hx, by simpa using hid⟩
    _ ≤ 1 := List.nodup_iff_count_le_one.mp hnodup d

end

end Batch

/-! ## the batches of a cycle -/

theorem Cycle.inFlightOf_setInFlight_ne (c : Cycle) {id id' : IndexId} (m : InFlight)
    (h : id ≠ id') : (c.setInFlight id m).inFlightOf id' = c.inFlightOf id' := by
  have hhead : (id' == id) = false := by simpa using Ne.symm h
  have hrest (l : List (IndexId × InFlight)) :
      (l.filter fun e => !(e.1 == id)).lookup id' = l.lookup id' := by
    induction l with
    | nil => rfl
    | cons e l ih =>
      obtain ⟨k, v⟩ := e
      by_cases hk : k = id
      · subst hk
        rw [List.filter_cons_of_neg (by simp), List.lookup_cons, hhead]
        exact ih
      · rw [List.filter_cons_of_pos (by simpa using hk), List.lookup_cons, List.lookup_cons, ih]
  unfold inFlightOf setInFlight
  rw [List.lookup_cons, hhead, hrest]

namespace Work

def batch? (id : IndexId) : Work → Option Batch
  | .call (.updating b _) => if b.index = id then some b else none
  | _ => none

/-- a process is inside a pass over a document that it holds for an index -/
def passes (id : IndexId) (d : DocumentId) (w : Work) : Bool :=
  ((w.batch? id).map (Batch.passes d)).getD false

/-- what a move is to the map of an index and the batches for it: nothing, a batch that begins or
has ended, or a move of a batch -/
inductive Flight (id : IndexId) (c : Cycle) (w : Work) (q : Progress Cycle Work) : Prop where
  | aside : q.shared.inFlightOf id = c.inFlightOf id → w.batch? id = none →
      q.self.batch? id = none → Flight id c w q
  | begins {documents : List UnsavedDocument} : q.shared.inFlightOf id = c.inFlightOf id →
      w.batch? id = none → q.self.batch? id = some (.ofDocuments id documents) → Flight id c w q
  | moves {b b' : Batch} {fired : Bool} {answer : Answering} {ev : List Event} :
      w.batch? id = some b →
      Batch.Moves fired answer (c.inFlightOf id) b (q.shared.inFlightOf id) b' ev →
      q.self.batch? id = some b' → Flight id c w q
  | ends {b : Batch} {r : BatchEnd} : q.shared.inFlightOf id = c.inFlightOf id →
      w.batch? id = some b → b.result? = some r → q.self.batch? id = none → Flight id c w q

section
variable {fired : Bool} {answer : Answering} {c c' : Cycle} {w : Work} {q : Progress Cycle Work}
  {id : IndexId}

theorem batch?_of_operation {k : CycleCall} (h : k.operation ≠ .update) :
    (call k).batch? id = none := by
  cases k with
  | updating => exact absurd rfl h
  | _ => rfl

theorem Effect.inFlight (h : w.Effect c c') :
    c'.inFlight = c.inFlight ∨ ∃ b success, w = .call (.updating b success) := by
  cases h with
  | fly _ hw => exact .inr ⟨_, _, hw⟩
  | shut _ hs => exact .inl (by cases hs <;> rfl)
  | _ => exact .inl rfl

theorem Moves.of_locating {index : IndexId} {documents : List UnsavedDocument}
    (h : Moves fired answer c (.call (.locating index documents)) q) :
    q.shared = c ∧ q.events = [] ∧
      (c.updateTask? index = none ∧ q.self = .ended (.flag false) ∨
        ∃ task, c.updateTask? index = some task ∧
          q.self = .call (.updating (.ofDocuments task.index documents) (.flag true))) := by
  cases h with
  | untasked h => exact ⟨rfl, rfl, .inl ⟨h, rfl⟩⟩
  | located h => exact ⟨rfl, rfl, .inr ⟨_, h, rfl⟩⟩
  | wait hw | waited hw => cases hw
  | reject ho => obtain ho | ho := ho <;> cases ho

theorem Moves.of_updating {b : Batch} {success : Reply}
    (h : Moves fired answer c (.call (.updating b success)) q) :
    (∃ m' b', Batch.Moves fired answer (c.inFlightOf b.index) b m' b' q.events ∧
      q.shared = c.setInFlight b.index m' ∧ q.self = .call (.updating b' success)) ∨
    ∃ r, b.result? = some r ∧ q.shared = c ∧ q.events = [] ∧
      q.self = .ended (CycleCall.updated success r) := by
  cases h with
  | update _ hp => exact .inl ⟨_, _, (Batch.moves_of_next hp).1, rfl, rfl⟩
  | updated hr => exact .inr ⟨_, hr, rfl, rfl, rfl⟩
  | wait hw | waited hw => cases hw
  | reject ho => obtain ho | ho := ho <;> cases ho

/-- a process that does not update documents is nothing to the batches -/
theorem flight_of_other (h : (w.next fired c).under answer = some q)
    (hw : ∀ k, w = .call k → k.operation ≠ .update) (id : IndexId) : Flight id c w q := by
  obtain ⟨heffect, honward⟩ := of_next h
  refine .aside ?_ ?_ ?_
  · obtain hsame | ⟨b, success, rfl⟩ := heffect.inFlight
    · unfold Cycle.inFlightOf
      rw [hsame]
    · exact absurd rfl (hw _ rfl)
  · cases w with
    | call k => exact batch?_of_operation (hw k rfl)
    | _ => rfl
  · cases hself : q.self with
    | call k' =>
      obtain ⟨k, rfl, ho⟩ := honward.operation hself
      exact batch?_of_operation (ho.trans_ne (hw k rfl))
    | _ => rfl

theorem Moves.flight_of_locating {index : IndexId} {documents : List UnsavedDocument}
    (h : Moves fired answer c (.call (.locating index documents)) q) (id : IndexId) :
    Flight id c (.call (.locating index documents)) q := by
  obtain ⟨hc, _, ⟨_, hself⟩ | ⟨task, _, hself⟩⟩ := h.of_locating
  · exact .aside (by rw [hc]) rfl (by rw [hself]; rfl)
  · by_cases hid : task.index = id
    · subst hid
      exact .begins (by rw [hc]) rfl (by rw [hself]; exact if_pos rfl)
    · exact .aside (by rw [hc]) rfl (by rw [hself]; exact if_neg hid)

theorem Moves.flight_of_updating {b : Batch} {success : Reply}
    (h : Moves fired answer c (.call (.updating b success)) q) (id : IndexId) :
    Flight id c (.call (.updating b success)) q := by
  obtain ⟨m', b', hm, hc, hself⟩ | ⟨r, hr, hc, _, hself⟩ := h.of_updating
  · by_cases hid : b.index = id
    · subst hid
      have hm' : Batch.Moves fired answer (c.inFlightOf b.index) b
          (q.shared.inFlightOf b.index) b' q.events := by
        rw [hc, Cycle.inFlightOf_setInFlight]
        exact hm
      exact .moves (if_pos rfl) hm' (by rw [hself]; exact if_pos hm.index_eq)
    · refine .aside ?_ (if_neg hid) ?_
      · rw [hc, c.inFlightOf_setInFlight_ne m' hid]
      · rw [hself]
        exact if_neg (hm.index_eq ▸ hid)
  · by_cases hid : b.index = id
    · exact .ends (by rw [hc]) (if_pos hid) hr (by rw [hself]; rfl)
    · exact .aside (by rw [hc]) (if_neg hid) (by rw [hself]; rfl)

/-- **What a move is to the batches for an index.** -/
theorem flight_of_next (h : (w.next fired c).under answer = some q) (id : IndexId) :
    Flight id c w q := by
  have hmoves := moves_of_next h
  cases w with
  | call k =>
    cases k with
    | locating index documents => exact hmoves.flight_of_locating id
    | updating b success => exact hmoves.flight_of_updating id
    | _ =>
      refine flight_of_other h (fun k hk => ?_) id
      cases hk
      nofun
  | _ =>
    refine flight_of_other h (fun k hk => ?_) id
    cases hk

end

end Work

/-! ## calls that update documents -/

namespace Cycle

def KeepsRegistry (c c' : Cycle) : Prop := ∀ r, c.registry = some r → c'.registry = some r

theorem KeepsRegistry.updateTask? {c c' : Cycle} (h : c.KeepsRegistry c') {index : IndexId}
    {task : DocumentUpdateTask} (ht : c.updateTask? index = some task) :
    c'.updateTask? index = some task := by
  obtain ⟨r, hr, htask⟩ := Option.bind_eq_some_iff.mp ht
  exact Option.bind_eq_some_iff.mpr ⟨r, h r hr, htask⟩

end Cycle

namespace Work

/-- where a call stands that updates documents of an index, with the task that it has found -/
def Updates (index : IndexId) (c : Cycle) : Work → Prop
  | .call (.locating index' _) => index' = index
  | .call (.updating b _) => b.Sound ∧ c.updateTask? index = some ⟨b.index⟩
  | .ended _ => True
  | _ => False

section
variable {fired : Bool} {answer : Answering} {c c' : Cycle} {w : Work} {q : Progress Cycle Work}
  {index : IndexId}

theorem Updates.mono (h : w.Updates index c) (hc : c.KeepsRegistry c') : w.Updates index c' := by
  unfold Updates at h ⊢
  split at h
  · exact h
  · exact ⟨h.1, hc.updateTask? h.2⟩
  · trivial
  · exact h.elim

theorem Updates.step (h : w.Updates index c) (hm : Moves fired answer c w q) :
    q.self.Updates index q.shared := by
  unfold Updates at h
  split at h
  · subst h
    obtain ⟨hc, _, ⟨_, hself⟩ | ⟨task, ht, hself⟩⟩ := hm.of_locating
    · rw [hself]
      trivial
    · rw [hself, hc]
      exact ⟨Batch.sound_ofDocuments _ _, ht⟩
  · obtain ⟨m', b', hb, hc, hself⟩ | ⟨r, _, _, _, hself⟩ := hm.of_updating
    · rw [hself, hc]
      refine ⟨hb.sound h.1, ?_⟩
      rw [hb.index_eq]
      exact h.2
    · rw [hself]
      trivial
  · cases hm
  · exact h.elim

theorem Updates.asks (h : w.Updates index c) (hm : Moves fired answer c w q) {id : IndexId}
    {document : UnsavedDocument} (hr : .entered (.indexUnsaved id document) ∈ q.events) :
    c.updateTask? index = some ⟨id⟩ := by
  cases hm.asks hr with
  | index b success => exact h.2

end

end Work

namespace Execution

/-- an index may be updated: it is in the published registry of the listing and reads content.  Its
opening may be on its way or have failed, but it has succeeded if a configuration is promised. -/
structure Admits (E : Builds) (t : Nat) (d : IndexDescriptor) : Prop where
  registered : ∃ r i, (E.cells t).registry = some r ∧ E.Registered t i r ∧ d ∈ r.descriptors
  content : d.contentDependent = true
  opening : E.OpeningOf t d
  opened : ∀ cfg, (E.cells t).outcome.slot = some (.ok cfg) →
    ∃ i, E.Answered t i (.openIndex d) (.returned (.ok ()))

variable {E : Builds} {s t u i : Nat}

theorem keepsRegistry (h : t ≤ u) : (E.cells t).KeepsRegistry (E.cells u) :=
  fun _ hr => registry_kept hr h

theorem Enters.updates {index : IndexId} {documents : List UnsavedDocument}
    (h : E.Enters s i (.call (.locating index documents))) (hst : s < t) :
    ∃ w, E.proc? t i = some w ∧ w.Updates index (E.cells t) := by
  induction t, hst using Nat.le_induction with
  | base => exact ⟨_, h.proc_succ, rfl⟩
  | succ t hst ih =>
    obtain ⟨w, hw, hupdates⟩ := ih
    obtain hw' | ⟨fired, answer, q, hm⟩ := Execution.proc_succ hw
    · exact ⟨w, hw', hupdates.mono (keepsRegistry (Nat.le_succ t))⟩
    · refine ⟨q.self, hm.self_succ, ?_⟩
      rw [hm.cells_succ]
      exact hupdates.step hm.work

theorem admits_of_task {index id : IndexId} (h : (E.cells t).updateTask? index = some ⟨id⟩) :
    id = index ∧ ∃ d, d.id = index ∧ E.Admits t d := by
  obtain ⟨r, hr, htask⟩ := Option.bind_eq_some_iff.mp h
  obtain ⟨i, descriptors, hlisted, hregister⟩ := registered_of_registry hr
  obtain ⟨heq, d, hd, hcontent, hid⟩ := (Genesis.tasked_register hregister index ⟨id⟩).mp htask
  exact ⟨congrArg DocumentUpdateTask.index heq, d, hid,
    ⟨r, i, hr, ⟨descriptors, hlisted, hregister⟩, hd⟩, hcontent, opening_of_registry hr hd,
    fun cfg hslot => opened_of_slot hslot hr hd⟩

end Execution

/-! ## the batches for an index -/

namespace Run

variable {r r' : Run Cycle Work} {id : IndexId}

def batches (r : Run Cycle Work) (id : IndexId) : List Batch := r.procs.filterMap (Work.batch? id)

/-- the map of an index is what the batches for it hold -/
def Tallies (r : Run Cycle Work) (id : IndexId) : Prop :=
  Batch.Tally (r.shared.inFlightOf id) (r.batches id)

theorem Tallies.step (h : r.Tallies id) (hst : Step Work.next r r') : r'.Tallies id := by
  obtain ⟨i, w, fired, answer, q, hw, hq, rfl⟩ := hst.exists_under
  obtain ⟨others, hp, hp'⟩ := exists_others hw
  have hbefore := hp.filterMap (Work.batch? id)
  have hafter := (hp' q).filterMap (Work.batch? id)
  have hspawned : q.spawned.filterMap (Work.batch? id) = [] := by
    refine List.filterMap_eq_nil_iff.mpr fun x hx => ?_
    obtain rfl | ⟨k, rfl⟩ := (Work.of_next hq).2.spawned x hx <;> rfl
  rw [← List.cons_append, List.filterMap_append, hspawned, List.append_nil] at hafter
  have h' := Batch.Tally.perm h hbefore
  refine Batch.Tally.perm ?_ hafter.symm
  rw [shared_commit]
  cases Work.flight_of_next hq id with
  | aside hc hw hself =>
    rw [List.filterMap_cons_none hw] at h'
    rw [List.filterMap_cons_none hself, hc]
    exact h'
  | begins hc hw hself =>
    rw [List.filterMap_cons_none hw] at h'
    rw [List.filterMap_cons_some hself, hc]
    exact (Batch.tally_cons (.inl (Batch.sound_ofDocuments _ _)) rfl).mpr h'
  | moves hw hm hself =>
    rw [List.filterMap_cons_some hw] at h'
    rw [List.filterMap_cons_some hself]
    exact h'.move hm
  | @ends b _ hc hw hr hself =>
    rw [List.filterMap_cons_some hw] at h'
    rw [List.filterMap_cons_none hself, hc]
    have hheld := h'.held b List.mem_cons_self
    have hclaims : b.claims = [] := by
      obtain hb | hb := hheld
      · exact hb.claims_of_result hr
      · exact hb.claims
    exact (Batch.tally_cons hheld hclaims).mp h'

theorem Tallies.invoke (h : r.Tallies id) {w : Work} (hw : Work.Begins r.shared w) :
    (r.invoke w).Tallies id := by
  have hnew : ∀ b, w.batch? id = some b → (b.Sound ∨ b.Bare) ∧ b.claims = [] := by
    intro b hb
    obtain ⟨k, hk, rfl⟩ := hw
    cases hk with
    | process index documents =>
      simp only [Work.batch?, Option.ite_none_right_eq_some, Option.some.injEq] at hb
      obtain ⟨_, rfl⟩ := hb
      exact ⟨.inl (Batch.sound_ofDocuments _ _), rfl⟩
    | processOne index document =>
      simp only [Work.batch?, Option.ite_none_right_eq_some, Option.some.injEq] at hb
      obtain ⟨_, rfl⟩ := hb
      exact ⟨.inr (Batch.bare_single _ _), rfl⟩
    | _ => cases hb
  refine Batch.Tally.perm ?_ ((List.perm_append_singleton w r.procs).symm.filterMap _)
  rw [shared_invoke]
  cases hb : w.batch? id with
  | none =>
    rw [List.filterMap_cons_none hb]
    exact h
  | some b =>
    rw [List.filterMap_cons_some hb]
    exact (Batch.tally_cons (hnew b hb).1 (hnew b hb).2).mpr h

/-- **The map of an index is exactly what the batches for it hold.** -/
theorem Reachable.tallies {initial : Cycle → Prop} (hinitial : ∀ c, initial c → c.inFlight = [])
    (h : Reachable Work.next Work.Begins initial r) (id : IndexId) : r.Tallies id := by
  refine h.invariant (I := fun r => r.Tallies id) (fun c hc => ?_)
    (fun _ _ hr hw => hr.invoke hw) fun _ _ hr hst => hr.step hst
  show Batch.Tally (c.inFlightOf id) []
  unfold Cycle.inFlightOf
  rw [hinitial c hc]
  exact Batch.tally_nil

/-- **Storage is inside at most one pass over a claimed document for an index.** -/
theorem Tallies.countP_passes (h : r.Tallies id) (d : DocumentId) :
    r.procs.countP (Work.passes id d) ≤ 1 := by
  have hcount := Batch.Tally.countP_passes h d
  unfold batches at hcount
  rwa [List.countP_filterMap] at hcount

end Run

end IndexCoordinator
