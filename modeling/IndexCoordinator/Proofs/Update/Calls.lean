import IndexCoordinator.Proofs.Record
import IndexCoordinator.Proofs.Update.Failure
import IndexCoordinator.Proofs.Update.Progress

/-!
# The calls of one batch

The documents of a batch are visited, put off, claimed in rounds and indexed, while other batches
change the map and storage may panic.  Here one batch is followed with the calls that it makes.

* `Batch.pending`, `Batch.Moves.pending`   a batch asks for what was pending, and for nothing twice;
* `Batch.Moves.in_order`     up to its first look it asks in the order of its documents;
* `Batch.Moves.idle`         with a fired token it asks for nothing;
* `Batch.Straight`, `Batch.Moves.straight`   how far a batch has come that nobody disturbs;
* `Execution.calls_of_batch` all of it, for a batch in an execution.
-/

namespace IndexCoordinator

namespace Event

def asked? : Event → Option UnsavedDocument
  | .entered (.indexUnsaved _ d) => some d
  | _ => none

def indexed? : Event → Option UnsavedDocument
  | .left (.indexUnsaved _ d) .completed => some d
  | _ => none

end Event

/-- what a batch has turned to and not asked storage for -/
def BatchStage.ahead : BatchStage → List UnsavedDocument
  | .claiming d => [d]
  | .entering d rest => d :: rest
  | .indexing _ rest => rest
  | _ => []

namespace Batch

/-- the documents that a batch may still ask storage for -/
def pending (b : Batch) : List UnsavedDocument :=
  b.stage.ahead ++ b.todo ++ b.busy.map (·.document)

theorem sweep_subperm (m : InFlight) (es : List BusyEntry) :
    ((sweep m es).2.2 ++ (sweep m es).2.1.map (·.document)).Subperm (es.map (·.document)) := by
  induction m, es using sweep.induct with
  | case1 m => exact List.Subperm.refl _
  | case2 m e rest s hs ih =>
    rw [sweep_cons_busy m e rest hs]
    exact List.perm_middle.subperm.trans ((List.subperm_cons e.document).mpr ih)
  | case3 m e rest hs hc ih =>
    rw [sweep_cons_claimed m e rest hs hc]
    exact (List.subperm_cons e.document).mpr ih
  | case4 m e rest hs hc ih =>
    rw [sweep_cons_covered m e rest hs hc]
    exact ih.cons_right e.document

/-- a batch that has not begun, or has ended, with nothing put off -/
def Idle (b : Batch) : Prop := b.busy = [] ∧ (b.stage = .visiting ∨ ∃ r, b.stage = .ended r)

/-- what storage was asked for and has indexed when a batch stands at a stage to which it came
straight on -/
def Reached (panicked : UnsavedDocument → PanicPayload → Prop)
    (asked indexed : List UnsavedDocument) : BatchStage → Prop
  | .entering _ rest => rest = [] ∧ asked = indexed
  | .indexing d rest => rest = [] ∧ asked = indexed ++ [d]
  | .releasing (some p) => ∃ d, asked = indexed ++ [d] ∧ panicked d p
  | .ended (.unwound p) => ∃ d, asked = indexed ++ [d] ∧ panicked d p
  | .looking => False
  | .waiting => False
  | .ended .cancelled => False
  | _ => asked = indexed

/-- how far a batch has come that goes straight on: it has put nothing off, it asks for its
documents in order, and it stops where storage panics -/
structure Straight (panicked : UnsavedDocument → PanicPayload → Prop)
    (documents asked indexed : List UnsavedDocument) (b : Batch) : Prop where
  order : documents = asked ++ (b.stage.ahead ++ b.todo)
  busy : b.busy = []
  reached : Reached panicked asked indexed b.stage

theorem Straight.looks {panicked : UnsavedDocument → PanicPayload → Prop}
    {documents asked indexed : List UnsavedDocument} {b : Batch}
    (h : Straight panicked documents asked indexed b) : b.looks = false := by
  have hreached := h.reached
  cases hl : b.looks with
  | false => rfl
  | true => obtain hst | hst := stage_of_looks hl <;> rw [hst] at hreached <;> cases hreached

theorem Straight.not_waiting {panicked : UnsavedDocument → PanicPayload → Prop}
    {documents asked indexed : List UnsavedDocument} {b : Batch}
    (h : Straight panicked documents asked indexed b) : b.stage ≠ .waiting := by
  intro hst
  have hlooks := looks_of_stage (.inr hst)
  rw [h.looks] at hlooks
  cases hlooks

theorem Straight.mem_of_claiming {panicked : UnsavedDocument → PanicPayload → Prop}
    {documents asked indexed : List UnsavedDocument} {b : Batch}
    (h : Straight panicked documents asked indexed b) {d : UnsavedDocument}
    (hst : b.stage = .claiming d) : d ∈ documents := by
  have horder := h.order
  rw [hst] at horder
  rw [horder]
  exact List.mem_append_right _ List.mem_cons_self

section
variable {fired : Bool} {answer : Answering} {m m' : InFlight} {b b' : Batch} {ev : List Event}

/-- **A batch asks for what was pending,** and no longer has it pending then. -/
theorem Moves.pending (hm : Moves fired answer m b m' b' ev) (hb : b.Sound) :
    (ev.filterMap Event.asked? ++ b'.pending).Subperm b.pending := by
  have hlook := sweep_subperm m b.busy
  have hlooking (hst : b.stage = .looking ∨ b.stage = .waiting) :
      b.todo = [] ∧ b.pending = b.busy.map (·.document) := by
    have htodo := (hb.claims_of_looking hst).2
    refine ⟨htodo, ?_⟩
    rw [Batch.pending, htodo]
    obtain hst | hst := hst <;> rw [hst] <;> rfl
  cases hm with
  | @seize d ready hst hready =>
    obtain ⟨htodo, hpending⟩ := hlooking hst
    rw [hpending]
    show (d :: ready ++ b.todo ++ _).Subperm _
    rwa [htodo, List.append_nil, ← hready]
  | settle hst =>
    show ([] ++ b.todo ++ []).Subperm _
    rw [(hlooking hst).1]
    exact List.nil_subperm
  | quit hst hready | wait hst hready =>
    obtain ⟨htodo, hpending⟩ := hlooking hst
    rw [hready] at hlook
    rw [hpending]
    show ([] ++ b.todo ++ _).Subperm _
    rwa [htodo]
  | @defer d s hst =>
    have hperm : (b.todo ++ (b.busy ++ [BusyEntry.mk d s]).map BusyEntry.document).Perm
        (d :: (b.todo ++ b.busy.map BusyEntry.document)) := by
      rw [List.map_append, ← List.append_assoc]
      exact List.perm_append_singleton d _
    rw [Batch.pending, Batch.pending, hst]
    exact hperm.subperm
  | visit hst htodo =>
    rw [Batch.pending, Batch.pending, hst, htodo]
    exact List.Subperm.refl _
  | panic hst =>
    rw [Batch.pending, Batch.pending, hst, List.append_assoc, List.append_assoc]
    exact (List.sublist_append_right _ _).subperm
  | finish hst | turn hst | giveUp hst | claim hst | enter hst | leaveLast hst | leave hst
  | release hst | unwind hst | resume hst =>
    rw [Batch.pending, Batch.pending, hst]
    exact List.Subperm.refl _

/-- **Up to its first look a batch asks in the order of its documents.** -/
theorem Moves.in_order (hm : Moves fired answer m b m' b' ev) (h : b.looks = false) :
    (ev.filterMap Event.asked? ++ (b'.stage.ahead ++ b'.todo)).Sublist
      (b.stage.ahead ++ b.todo) := by
  cases hm with
  | seize hst | settle hst | quit hst | wait hst =>
    rw [looks_of_stage hst] at h
    cases h
  | visit hst htodo =>
    rw [hst, htodo]
    exact List.Sublist.refl _
  | defer hst =>
    rw [hst]
    exact List.sublist_cons_self _ _
  | panic hst =>
    rw [hst]
    exact List.sublist_append_right _ _
  | finish hst | turn hst | giveUp hst | claim hst | enter hst | leaveLast hst | leave hst
  | release hst | unwind hst | resume hst =>
    rw [hst]
    exact List.Sublist.refl _

/-- **With a fired token a batch asks for nothing.** -/
theorem Moves.idle (hm : Moves true answer m b m' b' ev) (h : b.Idle) : b'.Idle ∧ ev = [] := by
  obtain ⟨hbusy, hstage⟩ := h
  cases hm with
  | finish | giveUp => exact ⟨⟨hbusy, .inr ⟨_, rfl⟩⟩, rfl⟩
  | turn _ _ hne => exact absurd hbusy hne
  | visit _ _ hf => cases hf
  | seize hst | settle hst | quit hst | wait hst =>
    obtain h | ⟨r, h⟩ := hstage <;> obtain hst | hst := hst <;> cases hst.symm.trans h
  | defer hst | claim hst | enter hst | leaveLast hst | leave hst | panic hst | release hst
  | unwind hst | resume hst => obtain h | ⟨r, h⟩ := hstage <;> cases hst.symm.trans h

/-- **A batch that nobody disturbs goes straight on:** its token has not fired, and it finds the
document free that it is about to claim. -/
theorem Moves.straight {panicked : UnsavedDocument → PanicPayload → Prop}
    {documents asked indexed : List UnsavedDocument} (hm : Moves false answer m b m' b' ev)
    (hs : Straight panicked documents asked indexed b)
    (hfree : ∀ d, b.stage = .claiming d → m.stamp? d.id = none)
    (hpanic : ∀ d rest p, b.stage = .indexing d rest →
      answer (.indexUnsaved b.index d) = .panicked p → panicked d p) :
    Straight panicked documents (asked ++ ev.filterMap Event.asked?)
      (indexed ++ ev.filterMap Event.indexed?) b' := by
  obtain ⟨horder, hbusy, hreached⟩ := hs
  -- a move that asks for nothing and ends no call
  have hsilent {s : BatchStage} {b' : Batch} (hst : b.stage = s)
      (hahead : s.ahead ++ b.todo = b'.stage.ahead ++ b'.todo) (hbusy : b'.busy = [])
      (hs : Reached panicked asked indexed s → Reached panicked asked indexed b'.stage) :
      Straight panicked documents (asked ++ []) (indexed ++ []) b' := by
    rw [hst] at horder hreached
    rw [List.append_nil, List.append_nil]
    exact ⟨hahead ▸ horder, hbusy, hs hreached⟩
  cases hm with
  | turn _ _ hne => exact absurd hbusy hne
  | giveUp _ _ hf => cases hf
  | seize hst | settle hst | quit hst | wait hst =>
    obtain hst | hst := hst <;> rw [hst] at hreached <;> cases hreached
  | defer hst hs => cases (hfree _ hst).symm.trans hs
  | finish hst => exact hsilent hst rfl hbusy id
  | visit hst htodo => exact hsilent hst (by rw [htodo]; rfl) hbusy id
  | claim hst => exact hsilent hst rfl hbusy fun h => ⟨rfl, h⟩
  | release hst => exact hsilent hst (by rw [hst]) hbusy fun h => hst ▸ h
  | unwind hst | resume hst => exact hsilent hst rfl hbusy id
  | @enter d rest hst =>
    rw [hst] at horder hreached
    obtain ⟨rfl, rfl⟩ := hreached
    refine ⟨?_, hbusy, rfl, ?_⟩
    · show documents = asked ++ [d] ++ ([] ++ b.todo)
      rw [horder, List.append_assoc]
      rfl
    · show asked ++ [d] = asked ++ [] ++ [d]
      rw [List.append_nil]
  | @leaveLast d hst =>
    rw [hst] at horder hreached
    obtain ⟨_, rfl⟩ := hreached
    refine ⟨?_, hbusy, ?_⟩
    · show documents = indexed ++ [d] ++ [] ++ ([] ++ b.todo)
      rw [List.append_nil]
      exact horder
    · show indexed ++ [d] ++ [] = indexed ++ [d]
      exact List.append_nil _
  | leave hst =>
    rw [hst] at hreached
    cases hreached.1
  | @panic d rest p hst ha =>
    rw [hst] at horder hreached
    obtain ⟨rfl, rfl⟩ := hreached
    refine ⟨?_, hbusy, d, ?_, hpanic d [] p hst ha⟩
    · show documents = indexed ++ [d] ++ [] ++ ([] ++ b.todo)
      rw [List.append_nil]
      exact horder
    · show indexed ++ [d] ++ [] = indexed ++ [] ++ [d]
      rw [List.append_nil, List.append_nil]

end

end Batch

namespace Execution

variable {index : IndexId}

section
variable (E : Batches index) (i : Nat)

/-- the documents that a batch has asked storage to index, in order -/
def calls (t : Nat) : List UnsavedDocument := (E.record i t).filterMap Event.asked?

/-- the documents that storage has indexed for a batch, in order -/
def passes (t : Nat) : List UnsavedDocument := (E.record i t).filterMap Event.indexed?

/-- the token of a batch has fired, or has not, at all its turns between two moments -/
def TokenIs (value : Bool) (t₀ t : Nat) : Prop :=
  ∀ u, t₀ < u → u < t → ∀ fired answer, E.cue u = .move i fired answer → fired = value

/-- a batch has not looked at busy documents so far -/
def InFirstLoop (t : Nat) : Prop := ∀ u ≤ t, ∀ b, E.proc? u i = some b → b.looks = false

/-- between two moments no other batch has held one of these documents in flight -/
def Undisturbed (documents : List UnsavedDocument) (t₀ t : Nat) : Prop :=
  ∀ u, t₀ < u → u < t → ∀ j x, j ≠ i → E.Holds u j x → ∀ d ∈ documents, x.id ≠ d.id

/-- storage has panicked on a document of a batch before a moment -/
def PanickedOn (t : Nat) (d : UnsavedDocument) (p : PanicPayload) : Prop :=
  E.Answered t i (.indexUnsaved index d) (.panicked p)

end

variable {E : Batches index} {t₀ t u i : Nat} {documents : List UnsavedDocument} {b : Batch}

/-- where a batch stands later, seen from what it keeps with its record -/
theorem Enters.invariant {I : List Event → Batch → Prop}
    (h : E.Enters t₀ i (.ofDocuments index documents)) (hbase : I [] (.ofDocuments index documents))
    (hb : E.proc? t i = some b)
    (hstep : ∀ u b fired answer q, t₀ < u → u < t → E.Moves u i b fired answer q →
      I (E.record i u) b → I (E.record i u ++ q.events) q.self) : I (E.record i t) b := by
  obtain ⟨b', hb', hI⟩ := h.record_invariant hbase hstep (h.lt_of_proc hb)
  cases hb.symm.trans hb'
  exact hI

theorem calls_subperm (h : E.Enters t₀ i (.ofDocuments index documents))
    (hb : E.proc? t i = some b) : (E.calls i t).Subperm documents := by
  have hI : ((E.record i t).filterMap Event.asked? ++ b.pending).Subperm documents := by
    refine h.invariant (I := fun events b => (events.filterMap Event.asked? ++ b.pending).Subperm
      documents) ?_ hb ?_
    · simpa [Batch.pending, Batch.ofDocuments, BatchStage.ahead] using List.Subperm.refl documents
    · intro u b fired answer q _ _ hm hI
      have hmove := hm.batch.pending (batch_sound hm.proc)
      rw [List.filterMap_append, List.append_assoc]
      exact ((List.subperm_append_left _).mpr hmove).trans hI
  exact (List.sublist_append_left _ _).subperm.trans hI

theorem calls_in_order (h : E.Enters t₀ i (.ofDocuments index documents))
    (hb : E.proc? t i = some b) (hloop : E.InFirstLoop i t) : (E.calls i t).Sublist documents := by
  have hI : ((E.record i t).filterMap Event.asked? ++ (b.stage.ahead ++ b.todo)).Sublist
      documents := by
    refine h.invariant (I := fun events b => (events.filterMap Event.asked? ++
      (b.stage.ahead ++ b.todo)).Sublist documents) (List.Sublist.refl _) hb ?_
    intro u b fired answer q _ hu hm hI
    have hmove := hm.batch.in_order (hloop u (Nat.le_of_lt hu) b hm.proc)
    rw [List.filterMap_append, List.append_assoc]
    exact (hmove.append_left _).trans hI
  exact (List.sublist_append_left _ _).trans hI

theorem calls_of_fired (h : E.Enters t₀ i (.ofDocuments index documents))
    (hb : E.proc? t i = some b) (htoken : E.TokenIs i true t₀ t) : E.calls i t = [] := by
  have hI : E.record i t = [] ∧ b.Idle := by
    refine h.invariant (I := fun events b => events = [] ∧ b.Idle) ⟨rfl, rfl, .inl rfl⟩ hb ?_
    intro u b fired answer q hu₀ hu hm hI
    obtain rfl := htoken u hu₀ hu fired answer hm.cue
    obtain ⟨hidle, hev⟩ := hm.batch.idle hI.2
    exact ⟨by rw [hI.1, hev, List.append_nil], hidle⟩
  rw [calls, hI.1]
  rfl

/-! ## a batch that nobody disturbs -/

theorem TokenIs.mono {value : Bool} (h : E.TokenIs i value t₀ t) (hut : u ≤ t) :
    E.TokenIs i value t₀ u := fun v h1 h2 => h v h1 (Nat.lt_of_lt_of_le h2 hut)

theorem Undisturbed.mono (h : E.Undisturbed i documents t₀ t) (hut : u ≤ t) :
    E.Undisturbed i documents t₀ u := fun v h1 h2 => h v h1 (Nat.lt_of_lt_of_le h2 hut)

theorem Undisturbed.free (h : E.Undisturbed i documents t₀ t) (htu : t₀ < u) (hut : u < t)
    (hb : E.proc? u i = some b) {d : UnsavedDocument} (hst : b.stage = .claiming d)
    (hd : d ∈ documents) : (E.cells u).stamp? d.id = none := by
  cases hs : (E.cells u).stamp? d.id with
  | none => rfl
  | some s =>
    obtain ⟨j, x, hx, hid, _⟩ := exists_holds (InFlight.mem_of_stamp? hs)
    by_cases hj : j = i
    · subst hj
      obtain ⟨b', hb', hclaims⟩ := hx
      cases hb.symm.trans hb'
      rw [(batch_sound hb).claims_of_visiting (.inr ⟨d, hst⟩)] at hclaims
      cases hclaims
    · exact absurd hid (h u htu hut j x hj hx d hd)

/-- **A batch that nobody disturbs goes straight on.** -/
theorem Undisturbed.straight (h : E.Undisturbed i documents t₀ t)
    (h0 : E.Enters t₀ i (.ofDocuments index documents)) (hb : E.proc? t i = some b)
    (htoken : E.TokenIs i false t₀ t) :
    Batch.Straight (E.PanickedOn i t) documents (E.calls i t) (E.passes i t) b := by
  refine h0.invariant (I := fun events b => Batch.Straight (E.PanickedOn i t) documents
    (events.filterMap Event.asked?) (events.filterMap Event.indexed?) b) ⟨rfl, rfl, rfl⟩ hb ?_
  intro u b fired answer q hu₀ hu hm hI
  obtain rfl := htoken u hu₀ hu fired answer hm.cue
  rw [List.filterMap_append, List.filterMap_append]
  refine hm.batch.straight hI (fun d hst => h.free hu₀ hu hm.proc hst (hI.mem_of_claiming hst))
    fun d rest p hst ha => ?_
  have hend := callEnds_of_indexing hm hst
  rw [index_eq hm.proc] at ha
  exact ⟨u, hu, ha ▸ hend⟩

/-- **It has ended after so many turns,** whatever documents it repeats. -/
theorem Undisturbed.ended (h : E.Undisturbed i documents t₀ t)
    (h0 : E.Enters t₀ i (.ofDocuments index documents)) (hb : E.proc? t i = some b)
    (htoken : E.TokenIs i false t₀ t)
    (hn : 6 * documents.length + 1 ≤ E.turnsOf i (t₀ + 1) (t - (t₀ + 1))) :
    b.result?.isSome = true := by
  have ht : t₀ + 1 + (t - (t₀ + 1)) = t := Nat.add_sub_of_le (h0.lt_of_proc hb)
  have hrun : ∃ b', E.proc? (t₀ + 1 + (t - (t₀ + 1))) i = some b' ∧
      (b'.result?.isSome = true ∨
        E.turnsOf i (t₀ + 1) (t - (t₀ + 1)) + b'.remaining ≤
          (Batch.ofDocuments index documents).remaining) := by
    refine turnsOf_add_rank_le Batch.remaining (fun b => b.result?.isSome = true)
      (fun u b fired answer q hm hover => ?_) (fun u b fired answer hu₀ hu hb hover hcue => ?_)
      h0.proc_succ
    · rw [hm.not_ended] at hover
      cases hover
    · have hut : u < t := ht ▸ hu
      have hstraight := (h.mono (Nat.le_of_lt hut)).straight h0 hb (htoken.mono (Nat.le_of_lt hut))
      obtain ⟨q, hq⟩ := (Batch.goesOn_of_not_waiting (E.cells u)
        (Option.not_isSome_iff_eq_none.mp hover) hstraight.not_waiting).exists_under fired answer
      have hm := Moves.of_cue hcue hb hq
      have hstraight' := (h.mono hut).straight h0 hm.self_succ (htoken.mono hut)
      exact ⟨q, hm, .inr (hm.batch.remaining_lt (busy_ne_nil hb) hstraight'.not_waiting
        fun d hst => h.free hu₀ hut hb hst (hstraight.mem_of_claiming hst))⟩
  rw [ht] at hrun
  obtain ⟨b', hb', hrank⟩ := hrun
  cases hb.symm.trans hb'
  cases hr : b.result? with
  | some r => rfl
  | none =>
    have hpos := Batch.remaining_pos hr (busy_ne_nil hb)
    obtain hover | hrank := hrank
    · rw [hr] at hover
      cases hover
    · change _ ≤ 6 * (documents.length + 0) + 1 at hrank
      omega

theorem Undisturbed.result (h : E.Undisturbed i documents t₀ t)
    (h0 : E.Enters t₀ i (.ofDocuments index documents)) (hb : E.proc? t i = some b)
    (htoken : E.TokenIs i false t₀ t) {r : BatchEnd} (hr : b.result? = some r) :
    (r = .completed ∧ E.calls i t = documents ∧ E.passes i t = documents) ∨
    ∃ before d after p, r = .unwound p ∧ documents = before ++ d :: after ∧
      E.calls i t = before ++ [d] ∧ E.passes i t = before ∧ E.PanickedOn i t d p := by
  obtain ⟨horder, _, hreached⟩ := h.straight h0 hb htoken
  have hsound := batch_sound hb
  unfold Batch.Sound at hsound
  rw [Batch.stage_of_result hr] at horder hreached hsound
  cases r with
  | completed =>
    have hcalls : documents = E.calls i t := by
      rw [hsound.2.1] at horder
      exact horder.trans (List.append_nil _)
    exact .inl ⟨rfl, hcalls.symm, (hcalls.trans hreached).symm⟩
  | cancelled => cases hreached
  | unwound p =>
    obtain ⟨d, hcalls, hpanic⟩ := hreached
    refine .inr ⟨E.passes i t, d, b.todo, p, rfl, ?_, hcalls, rfl, hpanic⟩
    rw [hcalls, List.append_assoc] at horder
    exact horder

/-- **The calls of a batch.**  Other batches may interfere, its token may fire, and storage may panic.

* A batch asks storage for every entry of its documents at most once, and for nothing else.
* What it asks for before it first looks at busy documents is in the order of its documents.
* If its token has fired before it comes in, it asks for nothing.
* If its token does not fire and no other batch holds one of its documents meanwhile, it asks for a
  first part of its documents, repeated ones included, and it has ended after so many turns: it has
  completed, and storage has indexed exactly its documents in order, or it unwinds with the panic of
  storage on one of them, after storage has indexed exactly those before it. -/
theorem calls_of_batch (h0 : E.Enters t₀ i (.ofDocuments index documents))
    (hb : E.proc? t i = some b) :
    (E.calls i t).Subperm documents ∧
    (E.InFirstLoop i t → (E.calls i t).Sublist documents) ∧
    (E.TokenIs i true t₀ t → E.calls i t = []) ∧
    (E.TokenIs i false t₀ t → E.Undisturbed i documents t₀ t →
      E.calls i t <+: documents ∧
      (6 * documents.length + 1 ≤ E.turnsOf i (t₀ + 1) (t - (t₀ + 1)) → b.result?.isSome = true) ∧
      ∀ r, b.result? = some r →
        (r = .completed ∧ E.calls i t = documents ∧ E.passes i t = documents) ∨
        ∃ before d after p, r = .unwound p ∧ documents = before ++ d :: after ∧
          E.calls i t = before ++ [d] ∧ E.passes i t = before ∧ E.PanickedOn i t d p) := by
  refine ⟨calls_subperm h0 hb, calls_in_order h0 hb, calls_of_fired h0 hb, fun htoken h => ?_⟩
  have hstraight := h.straight h0 hb htoken
  exact ⟨⟨_, hstraight.order.symm⟩, h.ended h0 hb htoken, fun r hr => h.result h0 hb htoken hr⟩

end Execution

namespace Batch

def repeated : List UnsavedDocument := [.plain 1 5, .plain 2 1, .plain 1 7]

def alone : Batches ⟨"words", 2⟩ :=
  .ofList [] (.enter (.ofDocuments ⟨"words", 2⟩ repeated) ::
    List.replicate 19 (.move 0 false (.granting []))) empty_isInitial (by
    intro p hp s
    simp only [List.mem_cons, Cue.enter.injEq, List.mem_replicate] at hp
    obtain rfl | hp := hp
    · exact ⟨_, rfl⟩
    · simp at hp)

end Batch

/-- it has ended after all its documents were indexed in order, the repeated one twice -/
theorem Execution.calls_of_batch_alone :
    Batch.alone.TokenIs 0 false 0 20 ∧ Batch.alone.Undisturbed 0 Batch.repeated 0 20 ∧
    Batch.alone.passes 0 20 = Batch.repeated := by
  have htoken : Batch.alone.TokenIs 0 false 0 20 := by
    intro u _ _ fired answer hcue
    have hmem := mem_of_getD hcue nofun
    obtain h | h := List.mem_cons.mp hmem
    · cases h
    · cases List.eq_of_mem_replicate h
      rfl
  have hfree : Batch.alone.Undisturbed 0 Batch.repeated 0 20 := by
    intro u _ hu j x hj hx
    obtain ⟨b, hb, _⟩ := hx
    have hlen : (Batch.alone.run 20).procs.length = 1 := by decide +kernel
    have hmono := length_mono (E := Batch.alone) (Nat.le_of_lt hu)
    have hlt := proc?_lt hb
    omega
  have h0 : Batch.alone.Enters 0 0 (.ofDocuments ⟨"words", 2⟩ Batch.repeated) := ⟨rfl, rfl⟩
  have hb : Batch.alone.proc? 20 0 =
      some { Batch.ofDocuments ⟨"words", 2⟩ [] with stage := .ended .completed } := by
    decide +kernel
  obtain ⟨_, _, _, hstraight⟩ := calls_of_batch h0 hb
  obtain ⟨_, _, hresult⟩ := hstraight htoken hfree
  refine ⟨htoken, hfree, ?_⟩
  obtain ⟨_, _, hpasses⟩ | ⟨_, _, _, _, hr, _⟩ := hresult _ rfl
  · exact hpasses
  · cases hr

end IndexCoordinator
