import IndexCoordinator.Proofs.Silence
import IndexCoordinator.Proofs.Update.Tenure

/-!
# Batches go on

Batches take several documents at once and wait for each other's documents in any order.  Nobody
waits with a claim in hand, so they never wait in a circle; and with every round that ends neither in
the wait nor by giving up, fewer documents are busy.

* `Batch.length_sweep`, `Batch.sweep_of_free`   what a look lets go of;
* `Batch.GoesOn`                a batch is inside a call of storage, or has a move that does not lead
                                back to its wait;
* `Run.exists_goesOn`           some batch goes on as long as one has not ended;
* `Batch.remaining`             how many moves a batch has left that finds its documents free, with
                                `Batch.Moves.remaining_lt`;
* `Execution.Uncontested`       from a moment on no other batch holds what a batch is busy with;
* `Execution.batches_go_on`     all of it together.
-/

namespace IndexCoordinator

namespace Batch

/-- whether a batch is about to look at its busy documents -/
def looks (b : Batch) : Bool :=
  match b.stage with
  | .looking => true
  | .waiting => true
  | _ => false

section
variable {b : Batch}

theorem stage_of_looks (h : b.looks = true) : b.stage = .looking ∨ b.stage = .waiting := by
  unfold looks at h
  split at h
  · next hst => exact .inl hst
  · next hst => exact .inr hst
  · cases h

theorem looks_of_stage (h : b.stage = .looking ∨ b.stage = .waiting) : b.looks = true := by
  unfold looks
  obtain h | h := h <;> rw [h]

theorem looks_of_result {r : BatchEnd} (h : b.result? = some r) : b.looks = false := by
  unfold result? at h
  split at h
  · next hst =>
    unfold looks
    rw [hst]
  · cases h

end

/-! ## a look -/

theorem length_sweep (m : InFlight) (es : List BusyEntry) :
    (sweep m es).2.1.length + (sweep m es).2.2.length ≤ es.length := by
  induction m, es using sweep.induct with
  | case1 m => exact Nat.le_refl _
  | case2 m e rest s hs ih =>
    rw [sweep_cons_busy m e rest hs]
    simp only [List.length_cons]
    omega
  | case3 m e rest hs hc ih =>
    rw [sweep_cons_claimed m e rest hs hc]
    simp only [List.length_cons]
    omega
  | case4 m e rest hs hc ih =>
    rw [sweep_cons_covered m e rest hs hc]
    simp only [List.length_cons]
    omega

/-- a look that finds every document free claims one, or leaves none to wait for -/
theorem sweep_of_free {m : InFlight} {es : List BusyEntry}
    (h : ∀ e ∈ es, m.stamp? e.document.id = none) (hnone : (sweep m es).2.2 = []) :
    (sweep m es).2.1 = [] := by
  induction m, es using sweep.induct with
  | case1 m => rfl
  | case2 m e rest s hs _ =>
    have hfree := h e List.mem_cons_self
    rw [hs] at hfree
    cases hfree
  | case3 m e rest hs hc _ =>
    rw [sweep_cons_claimed m e rest hs hc] at hnone
    cases hnone
  | case4 m e rest hs hc ih =>
    rw [sweep_cons_covered m e rest hs hc] at hnone ⊢
    exact ih (fun x hx => h x (List.mem_cons_of_mem e hx)) hnone

section
variable {m m' : InFlight} {b b' : Batch} {fired : Bool} {answer : Answering} {ev : List Event}

theorem stage_look_of_free (h : ∀ e ∈ b.busy, m.stamp? e.document.id = none) (fired : Bool) :
    (b.look fired m).2.stage ≠ .waiting := by
  have hnone := sweep_of_free h
  unfold look
  generalize sweep m b.busy = r at hnone ⊢
  obtain ⟨m', busy, ready⟩ := r
  cases ready with
  | cons d ready => nofun
  | nil =>
    obtain rfl : busy = [] := hnone rfl
    nofun

theorem Moves.busy_ne_nil (hm : Moves fired answer m b m' b' ev) (h : b'.looks = true) :
    b'.busy ≠ [] := by
  cases hm with
  | turn _ _ hbusy => exact hbusy
  | wait _ _ hbusy _ => exact hbusy
  | release hst _ =>
    unfold looks at h
    simp [hst] at h
  | _ => cases h

theorem Moves.looks_of_waiting (hm : Moves fired answer m b m' b' ev) (h : b'.stage = .waiting) :
    b.looks = true := by
  cases hm with
  | wait hst => exact looks_of_stage hst
  | release hst =>
    rw [show b.stage = .waiting from h] at hst
    cases hst
  | _ => cases h

theorem Moves.mem_busy_of_claiming (hm : Moves fired answer m b m' b' ev) {d : UnsavedDocument}
    {s : Stamp} (hst : b.stage = .claiming d) (hs : m.stamp? d.id = some s) :
    ⟨d, s⟩ ∈ b'.busy := by
  cases hm with
  | defer hst' hs' =>
    cases hst.symm.trans hst'
    cases hs.symm.trans hs'
    exact List.mem_append_right _ List.mem_cons_self
  | claim hst' hs' =>
    cases hst.symm.trans hst'
    cases hs.symm.trans hs'
  | seize hst' | settle hst' | quit hst' | wait hst' =>
    obtain hst' | hst' := hst' <;> cases hst.symm.trans hst'
  | finish hst' | turn hst' | giveUp hst' | visit hst' | enter hst' | leaveLast hst' | leave hst'
  | panic hst' | release hst' | unwind hst' | resume hst' => cases hst.symm.trans hst'

/-- **A round that does not end in the wait leaves fewer busy documents,** unless the batch gives
up. -/
theorem Moves.round (hm : Moves fired answer m b m' b' ev) (h : b.looks = true)
    (hbusy : b.busy ≠ []) :
    b'.stage = .waiting ∨ (fired = true ∧ b'.stage = .ended .cancelled) ∨
      b'.busy.length < b.busy.length := by
  have hlooks {s : BatchStage} {P : Prop} (hst : b.stage = s) (hs : s ≠ .looking)
      (hs' : s ≠ .waiting) : P := by
    obtain h | h := stage_of_looks h
    · exact absurd (hst.symm.trans h) hs
    · exact absurd (hst.symm.trans h) hs'
  cases hm with
  | @seize d ready _ hready =>
    have hlen := length_sweep m b.busy
    rw [hready, List.length_cons] at hlen
    right; right
    show (sweep m b.busy).2.1.length < b.busy.length
    omega
  | settle => exact .inr (.inr (List.length_pos_of_ne_nil hbusy))
  | quit _ _ _ hf => exact .inr (.inl ⟨hf, rfl⟩)
  | wait => exact .inl rfl
  | finish hst | turn hst | giveUp hst | visit hst | defer hst | claim hst | enter hst
  | leaveLast hst | leave hst | panic hst | release hst | unwind hst | resume hst =>
    exact hlooks hst nofun nofun

end

/-! ## going on -/

/-- a batch is inside a call of storage, or has a move, whatever its token says, that does not lead
back to the wait it is in -/
def GoesOn (m : InFlight) (b : Batch) : Prop :=
  (∃ d rest, b.stage = .indexing d rest) ∨
    ∀ fired, ∃ q, next fired m b = .act q ∧ (b.stage = .waiting → q.self.stage ≠ .waiting)

section
variable {m : InFlight} {b : Batch}

theorem goesOn_of_not_waiting (m : InFlight) (hb : b.result? = none) (hw : b.stage ≠ .waiting) :
    b.GoesOn m := by
  have hact (h : ∀ fired, ∃ q, next fired m b = .act q) : b.GoesOn m := by
    refine .inr fun fired => ?_
    obtain ⟨q, hq⟩ := h fired
    exact ⟨q, hq, fun h => absurd h hw⟩
  cases hst : b.stage with
  | indexing d rest => exact .inl ⟨d, rest, hst⟩
  | waiting => exact absurd hst hw
  | ended r => simp [result?, hst] at hb
  | visiting =>
    refine hact fun fired => ?_
    simp only [next, hst]
    split
    · exact ⟨_, rfl⟩
    · split <;> exact ⟨_, rfl⟩
  | claiming d =>
    refine hact fun fired => ?_
    simp only [next, hst]
    split <;> exact ⟨_, rfl⟩
  | releasing panic =>
    refine hact fun fired => ?_
    simp only [next, hst]
    split
    · exact ⟨_, rfl⟩
    · split <;> exact ⟨_, rfl⟩
  | entering | looking =>
    refine hact fun fired => ?_
    simp only [next, hst]
    exact ⟨_, rfl⟩

theorem goesOn_of_free (hw : b.stage = .waiting)
    (h : ∀ e ∈ b.busy, m.stamp? e.document.id = none) : b.GoesOn m := by
  refine .inr fun fired => ?_
  have hleaves := stage_look_of_free h fired
  refine ⟨{ shared := (b.look fired m).1, self := (b.look fired m).2 }, ?_, fun _ => hleaves⟩
  simp only [next, hw]
  rw [if_neg]
  · rfl
  · intro he
    rw [he] at hleaves
    exact hleaves hw

theorem GoesOn.exists_under (h : b.GoesOn m) (fired : Bool) (answer : Answering) :
    ∃ q, (next fired m b).under answer = some q := by
  obtain ⟨d, rest, hst⟩ | h := h
  · simp only [next, hst, Move.under_awaiting]
    exact ⟨_, rfl⟩
  · obtain ⟨q, hq, _⟩ := h fired
    exact ⟨q, by rw [hq]; rfl⟩

end

/-! ## how far a batch has to go -/

/-- how many moves a batch has left if it finds all its documents free: six for every document to
come, for the claim, the call, the release and the way back -/
def remaining (b : Batch) : Nat :=
  match b.stage with
  | .visiting => 6 * (b.todo.length + b.busy.length) + 1
  | .claiming _ => 6 * (b.todo.length + b.busy.length) + 6
  | .entering _ rest =>
    6 * (b.todo.length + b.busy.length) + b.claims.length + 2 * rest.length + 4
  | .indexing _ rest =>
    6 * (b.todo.length + b.busy.length) + b.claims.length + 2 * rest.length + 3
  | .releasing _ => 6 * (b.todo.length + b.busy.length) + b.claims.length + 2
  | .looking => 6 * (b.todo.length + b.busy.length)
  | .waiting => 6 * (b.todo.length + b.busy.length)
  | .ended _ => 0

section
variable {m m' : InFlight} {b b' : Batch} {fired : Bool} {answer : Answering} {ev : List Event}

theorem Sound.remaining_le (h : b.Sound) :
    b.remaining ≤ 6 * (b.todo.length + b.busy.length + 1) + 3 * b.claims.length := by
  unfold Sound at h
  unfold remaining
  cases hst : b.stage with
  | entering d rest =>
    rw [hst] at h
    have hlen := h.length_le
    simp only [List.length_cons] at hlen ⊢
    omega
  | indexing d rest =>
    rw [hst] at h
    have hlen := h.length_le
    simp only [List.length_cons] at hlen ⊢
    omega
  | _ =>
    simp only
    omega

theorem remaining_pos (hr : b.result? = none) (hbusy : b.looks = true → b.busy ≠ []) :
    0 < b.remaining := by
  have hlooks (hst : b.stage = .looking ∨ b.stage = .waiting) : 0 < b.busy.length :=
    List.length_pos_of_ne_nil (hbusy (looks_of_stage hst))
  unfold remaining
  cases hst : b.stage with
  | looking =>
    have := hlooks (.inl hst)
    simp only
    omega
  | waiting =>
    have := hlooks (.inr hst)
    simp only
    omega
  | ended r => simp [result?, hst] at hr
  | _ =>
    simp only
    omega

/-- **A batch that finds its documents free gets closer to its end with every move.** -/
theorem Moves.remaining_lt (hm : Moves fired answer m b m' b' ev)
    (hbusy : b.looks = true → b.busy ≠ []) (hwait : b'.stage ≠ .waiting)
    (hdefer : ∀ d, b.stage = .claiming d → m.stamp? d.id = none) :
    b'.remaining < b.remaining := by
  have hpos (hst : b.stage = .looking ∨ b.stage = .waiting) :
      b.remaining = 6 * (b.todo.length + b.busy.length) ∧ 0 < b.busy.length := by
    refine ⟨?_, List.length_pos_of_ne_nil (hbusy (looks_of_stage hst))⟩
    unfold remaining
    obtain hst | hst := hst <;> rw [hst]
  cases hm with
  | @seize d ready hst hready =>
    obtain ⟨hb, _⟩ := hpos hst
    have hlen := length_sweep m b.busy
    rw [hready, List.length_cons] at hlen
    rw [hb]
    show 6 * (b.todo.length + (sweep m b.busy).2.1.length) + (d :: ready).length +
      2 * ready.length + 4 < _
    rw [List.length_cons]
    omega
  | settle hst | quit hst =>
    obtain ⟨hb, hbusy⟩ := hpos hst
    rw [hb]
    show 0 < _
    omega
  | wait => exact absurd rfl hwait
  | defer hst hs =>
    rw [hdefer _ hst] at hs
    cases hs
  | finish hst | giveUp hst | unwind hst =>
    show 0 < b.remaining
    simp only [remaining, hst]
    omega
  | turn hst | enter hst | leaveLast hst | leave hst | panic hst =>
    simp only [remaining, hst, List.length_cons, List.length_nil]
    omega
  | visit hst htodo =>
    simp only [remaining, hst, htodo, List.length_cons]
    omega
  | claim hst =>
    simp only [remaining, hst, List.length_cons, List.length_nil]
    omega
  | release hst hcl | resume hst hcl =>
    simp only [remaining, hst, hcl, List.length_cons, List.length_nil]
    omega

theorem Moves.length_busy_le (hm : Moves fired answer m b m' b' ev)
    (hdefer : ∀ d, b.stage = .claiming d → m.stamp? d.id = none) :
    b'.busy.length ≤ b.busy.length := by
  have hlook := length_busy_sweep m b.busy
  cases hm with
  | seize | quit | wait => exact hlook
  | settle => exact Nat.zero_le _
  | defer hst hs =>
    rw [hdefer _ hst] at hs
    cases hs
  | _ => exact Nat.le_refl _

theorem Moves.round_of_free (hm : Moves fired answer m b m' b' ev) (h : b.looks = true)
    (hbusy : b.busy ≠ []) (hfree : ∀ e ∈ b.busy, m.stamp? e.document.id = none) :
    b'.stage ≠ .waiting ∧ b'.busy.length < b.busy.length := by
  have hround := hm.round h hbusy
  have hnone := sweep_of_free hfree
  cases hm with
  | wait _ hready hne _ => exact absurd (hnone hready) hne
  | quit _ hready hne _ => exact absurd (hnone hready) hne
  | seize | settle =>
    obtain hround | ⟨_, hround⟩ | hround := hround
    · cases hround
    · cases hround
    · exact ⟨nofun, hround⟩
  | finish hst | turn hst | giveUp hst | visit hst | defer hst | claim hst | enter hst
  | leaveLast hst | leave hst | panic hst | release hst | unwind hst | resume hst =>
    obtain h | h := stage_of_looks h <;> rw [hst] at h <;> cases h

end

end Batch

/-! ## nobody waits in a circle -/

namespace Run

/-- **Some batch goes on as long as one has not ended.** -/
theorem exists_goesOn {index : IndexId} {r : Run InFlight Batch}
    (h : Reachable Batch.next (Batch.Begins index) (· = []) r) {b : Batch} (hb : b ∈ r.procs)
    (hr : b.result? = none) : ∃ b' ∈ r.procs, b'.GoesOn r.shared := by
  by_cases hmoving : ∃ b' ∈ r.procs, b'.result? = none ∧ b'.stage ≠ .waiting
  · obtain ⟨b', hb', hr', hw⟩ := hmoving
    exact ⟨b', hb', Batch.goesOn_of_not_waiting _ hr' hw⟩
  · have hwaiting (x : Batch) (hx : x ∈ r.procs) (hxr : x.result? = none) :
        x.stage = .waiting := by
      by_contra hw
      exact hmoving ⟨x, hx, hxr, hw⟩
    -- nobody holds a claim, so nothing is in flight
    have hclaims : r.liveClaims = [] := by
      refine List.flatMap_eq_nil_iff.mpr fun x hx => ?_
      have hsound := h.claimed.sound x hx
      cases hxr : x.result? with
      | none => exact (hsound.claims_of_looking (.inr (hwaiting x hx hxr))).1
      | some result => exact hsound.claims_of_result hxr
    have hempty : r.shared = [] := by
      have hentries := h.claimed.entries
      rw [hclaims] at hentries
      exact hentries.eq_nil
    refine ⟨b, hb, Batch.goesOn_of_free (hwaiting b hb hr) fun e _ => ?_⟩
    rw [hempty]
    rfl

end Run

/-! ## a batch without rivals -/

namespace Execution

variable {index : IndexId}

section
variable (E : Batches index) (i t : Nat)

def turns (n : Nat) : Nat := (List.range n).countP fun k => (E.cue (t + k)).isMoveOf i

/-- how many rounds over its busy documents a batch has made in a while -/
def rounds (n : Nat) : Nat :=
  (List.range n).countP fun k => (E.cue (t + k)).isMoveOf i && (E.proc? (t + k) i).any Batch.looks

/-- from a moment on no other batch holds a document that a batch is busy with -/
def Uncontested : Prop :=
  ∀ u, t ≤ u → ∀ b, E.proc? u i = some b → ∀ e ∈ b.busy, ∀ j d, j ≠ i → E.Holds u j d →
    d.id ≠ e.document.id

end

variable {E : Batches index} {i t u n : Nat} {b : Batch}

theorem turns_succ (n : Nat) :
    E.turns i t (n + 1) = E.turns i t n + if (E.cue (t + n)).isMoveOf i then 1 else 0 := by
  simp [turns, List.range_succ]

theorem rounds_succ (n : Nat) :
    E.rounds i t (n + 1) = E.rounds i t n +
      if (E.cue (t + n)).isMoveOf i && (E.proc? (t + n) i).any Batch.looks then 1 else 0 := by
  simp [rounds, List.range_succ]

theorem busy_ne_nil (h : E.proc? t i = some b) (hl : b.looks = true) : b.busy ≠ [] := by
  induction t generalizing b with
  | zero => cases h
  | succ t ih =>
    obtain h | ⟨b₀, fired, answer, q, hm, rfl⟩ | ⟨documents, rfl⟩ := batch_of_succ h
    · exact ih h hl
    · exact hm.batch.busy_ne_nil hl
    · cases hl

theorem Moves.not_ended {fired : Bool} {answer : Answering} {q : Progress InFlight Batch}
    (h : E.Moves t i b fired answer q) : b.result? = none := by
  have hq := h.leads
  cases hst : b.stage with
  | ended r =>
    simp only [Batch.next, hst] at hq
    cases hq
  | _ => simp [Batch.result?, hst]

theorem proc_of_still (h : E.proc? t i = some b) (hc : (E.cue t).isMoveOf i = false) :
    E.proc? (t + 1) i = some b := by
  obtain h' | ⟨fired, answer, q, hm⟩ := Execution.proc_succ h
  · exact h'
  · rw [hm.cue] at hc
    simp [Cue.isMoveOf] at hc

theorem ended_stays (h : E.proc? t i = some b) (hr : b.result?.isSome = true) (htu : t ≤ u) :
    E.proc? u i = some b := by
  induction u, htu using Nat.le_induction with
  | base => exact h
  | succ u _ ih =>
    obtain h' | ⟨fired, answer, q, hm⟩ := Execution.proc_succ ih
    · exact h'
    · rw [hm.not_ended] at hr
      cases hr

theorem uncontested_of_alone
    (hothers : ∀ j b, j ≠ i → E.proc? t j = some b → b.result?.isSome = true)
    (hnew : ∀ u, t ≤ u → ∀ p, E.cue u ≠ .enter p) : E.Uncontested i t := by
  have hended (u : Nat) (htu : t ≤ u) (j : Nat) (hj : j ≠ i) (b : Batch)
      (hb : E.proc? u j = some b) : b.result?.isSome = true := by
    induction u, htu using Nat.le_induction generalizing b with
    | base => exact hothers j b hj hb
    | succ u htu ih =>
      obtain hb | ⟨b₀, fired, answer, q, hm, _⟩ | ⟨he, _⟩ | ⟨l, b₀, fired, answer, q, hm, hx, _⟩ :=
        proc_of_succ hb
      · exact ih b hb
      · have hr := ih b₀ hm.proc
        rw [hm.not_ended] at hr
        cases hr
      · exact absurd he.1 (hnew u htu b)
      · rw [(Batch.moves_of_next hm.leads).2] at hx
        cases hx
  rintro u htu _ _ _ _ j d hj ⟨b, hb, hclaims⟩
  obtain ⟨result, hr⟩ := Option.isSome_iff_exists.mp (hended u htu j hj b hb)
  rw [(batch_sound hb).claims_of_result hr] at hclaims
  cases hclaims

namespace Uncontested

theorem free (h : E.Uncontested i t) (htu : t ≤ u) (hb : E.proc? u i = some b)
    (hclaims : b.claims = []) : ∀ e ∈ b.busy, (E.cells u).stamp? e.document.id = none := by
  intro e he
  cases hs : (E.cells u).stamp? e.document.id with
  | none => rfl
  | some s =>
    obtain ⟨j, x, hx, hid, _⟩ := exists_holds (InFlight.mem_of_stamp? hs)
    by_cases hj : j = i
    · subst hj
      obtain ⟨b', hb', hd⟩ := hx
      obtain rfl : b = b' := Option.some.inj (hb.symm.trans hb')
      rw [hclaims] at hd
      cases hd
    · exact absurd hid (h u htu b hb e he j x hj hx)

theorem free_of_claiming (h : E.Uncontested i t) (htu : t ≤ u) {fired : Bool} {answer : Answering}
    {q : Progress InFlight Batch} (hm : E.Moves u i b fired answer q) {d : UnsavedDocument}
    (hst : b.stage = .claiming d) : (E.cells u).stamp? d.id = none := by
  cases hs : (E.cells u).stamp? d.id with
  | none => rfl
  | some s =>
    obtain ⟨j, x, ⟨b', hb', hd⟩, hid, _⟩ := exists_holds (InFlight.mem_of_stamp? hs)
    have hj : j ≠ i := by
      rintro rfl
      obtain rfl : b = b' := Option.some.inj (hm.proc.symm.trans hb')
      rw [(batch_sound hb').claims_of_visiting (.inr ⟨d, hst⟩)] at hd
      cases hd
    -- the holder still holds it when the document has become busy
    have hholds : E.Holds (u + 1) j x := by
      refine ⟨b', ?_, hd⟩
      rw [hm.proc_succ (proc?_lt hb'), if_neg hj]
      exact hb'
    exact absurd hid
      (h (u + 1) (by omega) _ hm.self_succ _ (hm.batch.mem_busy_of_claiming hst hs) j x hj hholds)

theorem goesOn (h : E.Uncontested i t) (htu : t ≤ u) (hb : E.proc? u i = some b)
    (hr : b.result? = none) : b.GoesOn (E.cells u) := by
  by_cases hw : b.stage = .waiting
  · exact Batch.goesOn_of_free hw
      (h.free htu hb ((batch_sound hb).claims_of_looking (.inr hw)).1)
  · exact Batch.goesOn_of_not_waiting _ hr hw

/-- **A move of a batch without rivals** brings it closer to its end, and a round leaves fewer
documents busy. -/
theorem move (h : E.Uncontested i t) (htu : t ≤ u) {fired : Bool} {answer : Answering}
    {q : Progress InFlight Batch} (hm : E.Moves u i b fired answer q) :
    q.self.remaining < b.remaining ∧
      q.self.busy.length + (if b.looks = true then 1 else 0) ≤ b.busy.length := by
  have hdefer (d : UnsavedDocument) (hst : b.stage = .claiming d) := h.free_of_claiming htu hm hst
  have hbusy (hl : b.looks = true) : b.busy ≠ [] := busy_ne_nil hm.proc hl
  by_cases hl : b.looks = true
  · have hclaims := ((batch_sound hm.proc).claims_of_looking (Batch.stage_of_looks hl)).1
    obtain ⟨hwait, hlt⟩ :=
      hm.batch.round_of_free hl (hbusy hl) (h.free htu hm.proc hclaims)
    rw [if_pos hl]
    exact ⟨hm.batch.remaining_lt hbusy hwait hdefer, hlt⟩
  · rw [if_neg hl]
    exact ⟨hm.batch.remaining_lt hbusy (fun hw => hl (hm.batch.looks_of_waiting hw)) hdefer,
      hm.batch.length_busy_le hdefer⟩

/-- **The further run of a batch without rivals:** every round is paid with a busy document, every
turn with one of the moves it has left. -/
theorem run (h : E.Uncontested i t) (hb : E.proc? t i = some b) (n : Nat) :
    ∃ b', E.proc? (t + n) i = some b' ∧
      E.rounds i t n + b'.busy.length ≤ b.busy.length ∧
      (b'.result?.isSome = true ∨ E.turns i t n + b'.remaining ≤ b.remaining) := by
  induction n with
  | zero => exact ⟨b, hb, by simp [rounds], .inr (by simp [turns])⟩
  | succ n ih =>
    obtain ⟨b₁, hb₁, hrounds, hturns⟩ := ih
    rw [rounds_succ, turns_succ, hb₁]
    cases hc : (E.cue (t + n)).isMoveOf i with
    | false => exact ⟨b₁, proc_of_still hb₁ hc, by simpa using hrounds, by simpa using hturns⟩
    | true =>
      cases hr : b₁.result? with
      | some r =>
        have hend : b₁.result?.isSome = true := by rw [hr]; rfl
        refine ⟨b₁, ended_stays hb₁ hend (Nat.le_succ _), ?_, .inl hend⟩
        simpa [Batch.looks_of_result hr] using hrounds
      | none =>
        obtain ⟨fired, answer, hcue⟩ := Cue.exists_move hc
        obtain ⟨q, hq⟩ := (h.goesOn (Nat.le_add_right t n) hb₁ hr).exists_under fired answer
        have hm := Moves.of_cue hcue hb₁ hq
        obtain ⟨hlt, hround⟩ := h.move (Nat.le_add_right t n) hm
        rw [hr] at hturns
        refine ⟨q.self, hm.self_succ, ?_, .inr ?_⟩
        · simp only [Option.any_some, Bool.true_and]
          omega
        · obtain hturns | hturns := hturns
          · cases hturns
          · rw [if_pos rfl]
            omega

end Uncontested

/-- **Batches go on.**  In every execution of batches for one index, in which storage may return or
panic:

* a batch in its wait holds no claim;
* as long as a batch has not ended, some batch is inside a call of storage or can make a move that
  does not lead back to its wait;
* a round over busy documents ends in the wait, or in giving up, or leaves fewer documents busy;
* a batch that no other contests from some moment on makes at most as many further rounds as it has
  busy documents, goes on until it has ended, and has ended after so many turns, whatever documents
  it repeats. -/
theorem batches_go_on (E : Batches index) :
    (∀ t i b, E.proc? t i = some b → b.stage = .waiting → b.claims = []) ∧
    (∀ t i b, E.proc? t i = some b → b.result? = none →
      ∃ j b', E.proc? t j = some b' ∧ b'.GoesOn (E.cells t)) ∧
    (∀ t i b fired answer q, E.Moves t i b fired answer q → b.looks = true →
      q.self.stage = .waiting ∨ (fired = true ∧ q.self.stage = .ended .cancelled) ∨
        q.self.busy.length < b.busy.length) ∧
    ∀ t i b, E.proc? t i = some b → E.Uncontested i t → ∀ n,
      E.rounds i t n ≤ b.busy.length ∧
      ∃ b', E.proc? (t + n) i = some b' ∧
        (b'.result?.isSome = true ∨ b'.GoesOn (E.cells (t + n))) ∧
        (6 * (b.todo.length + b.busy.length + 1) + 3 * b.claims.length ≤ E.turns i t n →
          b'.result?.isSome = true) := by
  refine ⟨fun t i b hb hw => ((batch_sound hb).claims_of_looking (.inr hw)).1,
    fun t i b hb hr => ?_,
    fun t i b fired answer q hm hl => hm.batch.round hl (busy_ne_nil hm.proc hl),
    fun t i b hb h n => ?_⟩
  · obtain ⟨b', hb', hgo⟩ := Run.exists_goesOn (E.reachable t) (List.mem_of_getElem? hb) hr
    obtain ⟨j, hj⟩ := List.mem_iff_getElem?.mp hb'
    exact ⟨j, b', hj, hgo⟩
  · obtain ⟨b', hb', hrounds, hturns⟩ := h.run hb n
    refine ⟨by omega, b', hb', ?_, fun hn => ?_⟩
    · cases hr : b'.result? with
      | some r => exact .inl rfl
      | none => exact .inr (h.goesOn (Nat.le_add_right t n) hb' hr)
    · obtain hturns | hturns := hturns
      · exact hturns
      · have hle := (batch_sound hb).remaining_le
        cases hr : b'.result? with
        | some r => rfl
        | none =>
          have hpos := Batch.remaining_pos hr (busy_ne_nil hb')
          omega

end Execution

namespace Batch

/-- two batches over one document, which the second repeats: it finds it in flight both times and
comes to wait, and the first ends -/
def meeting : List (Cue Batch) :=
  .enter (.ofDocuments ⟨"words", 2⟩ [.plain 1 5]) ::
    .enter (.ofDocuments ⟨"words", 2⟩ [.plain 1 7, .plain 1 9]) ::
    [0, 0, 1, 1, 1, 1, 1, 1, 0, 0, 0, 0, 0].map fun i => .move i false (.granting [])

/-- the second batch goes on alone -/
def repeating : Batches ⟨"words", 2⟩ :=
  .ofList [] (meeting ++ List.replicate 18 (.move 1 false (.granting []))) empty_isInitial (by
    intro p hp s
    simp only [meeting, List.mem_append, List.mem_cons, Cue.enter.injEq, List.mem_replicate] at hp
    obtain (rfl | rfl | hp) | hp := hp
    · exact ⟨_, rfl⟩
    · exact ⟨_, rfl⟩
    · simp at hp
    · simp at hp)

def repeatingWaits : Batch :=
  { ofDocuments ⟨"words", 2⟩ [] with
    busy := [⟨.plain 1 7, 5⟩, ⟨.plain 1 9, 5⟩], stage := .waiting }

end Batch

/-- a batch waits with two entries for one document, is alone from then on, makes two rounds and
has ended -/
theorem Execution.batches_go_on_repeating :
    Batch.repeating.proc? 15 1 = some Batch.repeatingWaits ∧ Batch.repeatingWaits.claims = [] ∧
    (∃ j b', Batch.repeating.proc? 15 j = some b' ∧ b'.GoesOn (Batch.repeating.cells 15)) ∧
    Batch.repeating.rounds 1 15 18 ≤ 2 ∧
    ∃ b', Batch.repeating.proc? 33 1 = some b' ∧ b'.result?.isSome = true := by
  have hb : Batch.repeating.proc? 15 1 = some Batch.repeatingWaits := by decide +kernel
  have halone : Batch.repeating.Uncontested 1 15 := by
    refine uncontested_of_alone (fun j b hj hb => ?_) (fun u hu p he => ?_)
    · have hlen : (Batch.repeating.run 15).procs.length = 2 := by decide +kernel
      have hlt := proc?_lt hb
      obtain rfl : j = 0 := by omega
      have hended : (Batch.repeating.proc? 15 0).all (·.result?.isSome) = true := by
        decide +kernel
      rw [hb] at hended
      exact hended
    · replace he : (Batch.meeting ++ _).getD u .rest = .enter p := he
      rw [List.getD_eq_getElem?_getD,
        List.getElem?_append_right (show Batch.meeting.length ≤ u from hu),
        ← List.getD_eq_getElem?_getD] at he
      cases List.eq_of_mem_replicate (mem_of_getD he nofun)
  obtain ⟨hwait, hgo, _, hrun⟩ := Execution.batches_go_on Batch.repeating
  obtain ⟨hrounds, b', hb', _, hend⟩ := hrun 15 1 _ hb halone 18
  have hturns : Batch.repeating.turns 1 15 18 = 18 := by decide +kernel
  exact ⟨hb, hwait 15 1 _ hb rfl, hgo 15 1 _ hb rfl, hrounds, b', hb',
    hend (by rw [hturns]; decide)⟩

/-- two batches over one document; the second waits for the first, and its token fires meanwhile -/
def Batch.dismissed : Batches ⟨"words", 2⟩ :=
  .ofList [] (.enter (.ofDocuments _ [.plain 1 5]) :: .enter (.ofDocuments _ [.plain 1 7]) ::
      [(0, false), (0, false), (1, false), (1, false), (1, false), (1, false), (1, true)].map
        fun move => .move move.1 move.2 (.granting []))
    empty_isInitial (by
      intro p hp s
      simp only [List.mem_cons, Cue.enter.injEq] at hp
      obtain rfl | rfl | hp := hp
      · exact ⟨_, rfl⟩
      · exact ⟨_, rfl⟩
      · simp at hp)

/-- a round that does not end in the wait may leave as many documents busy: the one in which a batch
finds that its token has fired -/
theorem Execution.not_shrinking_every_round :
    ¬ ∀ (index : IndexId) (E : Batches index) t i b fired answer q,
      E.Moves t i b fired answer q → b.looks = true → q.self.stage ≠ .waiting →
      q.self.busy.length < b.busy.length := by
  intro h
  have hround := h _ Batch.dismissed 8 1 _ _ _ _ (.of_cue rfl rfl rfl) rfl nofun
  exact absurd hround (by decide)

end IndexCoordinator
