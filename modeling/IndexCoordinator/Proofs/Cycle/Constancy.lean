import IndexCoordinator.Proofs.Cycle.Hints
import IndexCoordinator.Proofs.Evaluator.Pass
import IndexCoordinator.Proofs.Fairness

/-!
# Lookups of one cycle agree

The evaluators of a cycle are made from whatever file types were listed at the time, and replace each
other in whatever order they come to be stored.  All of them are over the one registry that the cycle
publishes, and what was computed in advance is what would be computed at the lookup; so it never shows
which of them has answered.

* `Evaluator.Alike`            two evaluators that answer alike, as all of one registry do
                               (`Evaluator.alike_ofRegistry`);
* `Execution.Found`            a lookup that has its answer, from the evaluator that it moved under
                               (`Execution.Found.exists_evaluator`);
* `Execution.Enters.idle_of_panicked`   a reset of the hints that panics changes no cell;
* `Execution.lookups_agree`    any two lookups for the same argument have the same answer.
-/

namespace IndexCoordinator

namespace Evaluator

/-- two evaluators that give the same answer to every lookup -/
def Alike (e e' : Evaluator) : Prop :=
  (∀ file, e.requiredIndexes file = e'.requiredIndexes file) ∧
    ∀ fileType, e.requiredForType fileType = e'.requiredForType fileType

/-- **The types that were computed in advance do not show.** -/
theorem alike_ofRegistry (r : Registry) (types types' : List FileType) (limit : Nat) :
    (ofRegistry r types limit).Alike (ofRegistry r types' limit) := by
  refine ⟨fun file => ?_, fun fileType => ?_⟩
  · rw [requiredIndexes, requiredIndexes, forType_ofRegistry, forType_ofRegistry]
    rfl
  · rw [requiredForType, requiredForType, forType_ofRegistry, forType_ofRegistry]

end Evaluator

def CycleCall.answerOf (e : Evaluator) : CycleCall → Reply
  | .requiring file => required (e.requiredIndexes file).outcome
  | .viewing fileType => .views (e.requiredForType fileType).1 (e.requiredForType fileType).2
  | _ => .done

theorem Evaluator.Alike.answerOf {e e' : Evaluator} (h : e.Alike e') (k : CycleCall) :
    k.answerOf e = k.answerOf e' := by
  cases k with
  | requiring file => simp only [CycleCall.answerOf, h.1 file]
  | viewing fileType => simp only [CycleCall.answerOf, h.2 fileType]
  | _ => rfl

theorem Work.Moves.answered {fired : Bool} {answer : Answering} {c : Cycle} {k : CycleCall}
    {q : Progress Cycle Work} (h : Work.Moves fired answer c (.call k) q)
    (hk : k.operation.isLookup = true) (hq : q.self ≠ .ended (.failed .notInitialized)) :
    ∃ e, c.evaluator = some e ∧ q.self = .ended (k.answerOf e) := by
  cases h with
  | reject => exact absurd rfl hq
  | require he | view he => exact ⟨_, he, rfl⟩
  | wait hw | waited hw => cases hw.symm.trans (CycleCall.wait?_of_isLookup hk)
  | _ => cases hk

theorem Work.Moves.reset_cells {fired : Bool} {answer : Answering} {c : Cycle} {b : Rebuild}
    {q : Progress Cycle Work} (h : Work.Moves fired answer c (.call (.resettingHints b)) q)
    (hq : q.self ≠ .ended .done) : q.shared = c := by
  cases h with
  | reset hb =>
    cases hb with
    | store => exact absurd rfl hq
    | _ => rfl
  | reject ho => obtain ho | ho := ho <;> cases ho
  | wait hw | waited hw => cases hw

namespace Execution

variable {E : Builds} {t u s i j : Nat} {k : CycleCall} {r r' : Reply}

/-- **Any two evaluators of a cycle answer alike**, whenever they were published. -/
theorem alike {e e' : Evaluator} (h : (E.cells t).evaluator = some e)
    (h' : (E.cells u).evaluator = some e') : e.Alike e' := by
  obtain ⟨r, types, hr, rfl⟩ := Evaluates.mono (evaluates_of_evaluator h) (Nat.le_max_left t u)
  obtain ⟨r', types', hr', rfl⟩ :=
    Evaluates.mono (evaluates_of_evaluator h') (Nat.le_max_right t u)
  cases hr.symm.trans hr'
  exact Evaluator.alike_ofRegistry r types types' _

/-! ## lookups -/

/-- a lookup that came in has its reply, and was not rejected -/
def Found (E : Builds) (t i : Nat) (k : CycleCall) (r : Reply) : Prop :=
  k.operation.isLookup = true ∧ (∃ s, E.Enters s i (.call k)) ∧
    E.proc? t i = some (.ended r) ∧ r ≠ .failed .notInitialized

theorem Enters.exists_lookup (h : E.Enters s i (.call k)) (hk : k.operation.isLookup = true)
    (hr : E.proc? t i = some (.ended r)) :
    ∃ v fired answer q, s < v ∧ v < t ∧ E.Moves v i (.call k) fired answer q ∧
      q.self = .ended r := by
  refine h.exists_only_move (fun fired c answer q hq => ?_) hr nofun
  obtain ⟨q', r', hnext, hq', _⟩ := lookup_replies hk c fired answer
  cases hnext.symm.trans hq
  exact fun _ _ => by rw [hq']; rfl

theorem Found.exists_evaluator (h : E.Found t i k r) :
    ∃ v e, v < t ∧ (E.cells v).evaluator = some e ∧ r = k.answerOf e := by
  obtain ⟨hk, ⟨s, he⟩, hr, hne⟩ := h
  obtain ⟨v, fired, answer, q, _, hvt, hm, hq⟩ := he.exists_lookup hk hr
  obtain ⟨e, hev, hq'⟩ := hm.work.answered hk (by rw [hq]; simpa using hne)
  cases hq.symm.trans hq'
  exact ⟨v, e, hvt, hev, rfl⟩

/-! ## resets that panic -/

theorem Enters.exists_rebuild (h : E.Enters s i (.call (.resettingHints .reading))) {w : Work}
    {fired : Bool} {answer : Answering} {q : Progress Cycle Work}
    (hm : E.Moves t i w fired answer q) : ∃ b, w = .call (.resettingHints b) := by
  obtain ⟨k, hk, ho⟩ | ⟨r, hr⟩ := h.call_or_ended (h.lt_of_proc hm.proc)
  · cases hm.proc.symm.trans hk
    cases k with
    | resettingHints b => exact ⟨b, rfl⟩
    | _ => cases ho
  · cases hm.proc.symm.trans hr
    cases hm.leads

/-- **A reset of the hints that panics changes no cell.** -/
theorem Enters.idle_of_panicked (h : E.Enters s i (.call (.resettingHints .reading)))
    {p : PanicPayload} (hp : E.proc? t i = some (.ended (.panicked p))) {w : Work} {fired : Bool}
    {answer : Answering} {q : Progress Cycle Work} (hm : E.Moves u i w fired answer q) :
    E.cells (u + 1) = E.cells u := by
  obtain ⟨b, rfl⟩ := h.exists_rebuild hm
  rw [hm.cells_succ]
  refine hm.work.reset_cells fun hq => ?_
  cases reply_unique hp (hq ▸ hm.self_succ)

theorem Enters.answered_of_panicked (h : E.Enters s i (.call (.resettingHints .reading)))
    {p : PanicPayload} (hp : E.proc? t i = some (.ended (.panicked p))) :
    E.Answered t i .registeredFileTypes (.panicked p) := by
  obtain ⟨v, k, fired, answer, q, _, hvt, hm, hq, _⟩ := h.exists_move hp
  obtain ⟨b, hb⟩ := h.exists_rebuild hm
  cases hb
  cases hm.work with
  | reset hb =>
    cases hb with
    | @panicked r p' ha =>
      cases hq
      exact (ha ▸ hm.answered rfl).mono hvt
    | _ => cases hq
  | reject ho => obtain ho | ho := ho <;> cases ho
  | wait hw | waited hw => cases hw

/-- **Lookups of one cycle agree.**  However the build of a cycle, resets of the hints and any other
calls are interleaved, and whatever the registry of file types lists or whether it panics at every
call: any two evaluators that were ever published answer alike; so any two lookups for the same file,
or for the same type, that are not rejected have the same answer, at whatever moments they came and
whichever evaluators served them; and a reset that panics, as it does only when the registry of file
types does, leaves evaluator, phase and all other cells as they are with every move that it makes. -/
theorem lookups_agree (E : Builds) :
    (∀ t u e e', (E.cells t).evaluator = some e → (E.cells u).evaluator = some e' → e.Alike e') ∧
    (∀ k t i r u j r', E.Found t i k r → E.Found u j k r' → r = r') ∧
    ∀ s i t p, E.Enters s i (.call (.resettingHints .reading)) →
      E.proc? t i = some (.ended (.panicked p)) →
      E.Answered t i .registeredFileTypes (.panicked p) ∧
      ∀ u w fired answer q, E.Moves u i w fired answer q → E.cells (u + 1) = E.cells u := by
  refine ⟨fun t u e e' h h' => alike h h', fun k t i r u j r' h h' => ?_,
    fun s i t p h hp => ⟨h.answered_of_panicked hp, fun u w fired answer q hm =>
      h.idle_of_panicked hp hm⟩⟩
  obtain ⟨v, e, _, he, rfl⟩ := h.exists_evaluator
  obtain ⟨v', e', _, he', rfl⟩ := h'.exists_evaluator
  exact (alike he he').answerOf k

/-- callers come in one after the other, and then processes move, each move with answers of its own -/
def ofMoves (calls : List CycleCall) (moves : List (Nat × Answering))
    (hfresh : calls.Forall CycleCall.Fresh) : Builds :=
  .ofList (.ofGeneration {} 1)
    (calls.map (fun k => .enter (.call k)) ++ moves.map fun move => .move move.1 false move.2)
    new_isInitial fun w hw _ => by
      obtain hcall | hmove := List.mem_append.mp hw
      · obtain ⟨k, hk, heq⟩ := List.mem_map.mp hcall
        cases heq
        exact ⟨k, List.forall_iff_forall_mem.mp hfresh k hk, rfl⟩
      · obtain ⟨_, _, heq⟩ := List.mem_map.mp hmove
        cases heq

def shortTexts : IndexDescriptor :=
  { id := ⟨"short", 1⟩
    inputFilter := .fileTypesAnd [⟨"text"⟩] fun file => pure (decide (file.length < 8)) }

/-- everything succeeds but maybe the listing of the file types -/
def telling (types : Outcome (List FileType)) : Answering
  | .registeredFileTypes => types
  | r => Answering.granting [shortTexts] r

def shortText : IndexedFile := .regular "a.txt" ⟨"text"⟩ 3

/-- three callers reset the hints once the registry is published.  The first is told a type, but it
stores its evaluator after the second, which was told none; the third panics.  A file is looked up
before the first has stored its evaluator, and again afterwards. -/
def outrun : Builds :=
  .ofMoves
    [.submitting .claiming, .resettingHints .reading, .resettingHints .reading,
      .resettingHints .reading, .requiring shortText, .requiring shortText]
    (([0, 0, 0, 6, 6, 6, 1, 1, 2].map (·, telling (.returned [⟨"text"⟩]))) ++
      ([2, 2, 4, 1, 5, 3].map (·, telling (.returned []))) ++
      [(3, telling (.panicked (.text "types gone")))])
    ⟨.submit, .resetHints, .resetHints, .resetHints, .require _, .require _⟩

/-- the type is in the later evaluator only, and yet both lookups have the same answer -/
theorem lookups_agree_outrun :
    (∃ e e', (outrun.cells 17).evaluator = some e ∧ (outrun.cells 19).evaluator = some e' ∧
      e.isPrecomputed ⟨"text"⟩ = false ∧ e'.isPrecomputed ⟨"text"⟩ = true ∧ e.Alike e') ∧
    (outrun.Found 18 4 (.requiring shortText) (.ids [shortTexts.id]) ∧
      ∃ r, outrun.Found 20 5 (.requiring shortText) r ∧ r = .ids [shortTexts.id]) ∧
    outrun.proc? 22 3 = some (.ended (.panicked (.text "types gone"))) ∧
    outrun.Answered 22 3 .registeredFileTypes (.panicked (.text "types gone")) ∧
    outrun.cells 22 = outrun.cells 21 := by
  obtain ⟨halike, hagree, hpanicked⟩ := lookups_agree outrun
  have hearly : (outrun.cells 17).evaluator.map (·.isPrecomputed ⟨"text"⟩) = some false := by
    decide +kernel
  have hlate : (outrun.cells 19).evaluator.map (·.isPrecomputed ⟨"text"⟩) = some true := by
    decide +kernel
  obtain ⟨e, he, hno⟩ := Option.map_eq_some_iff.mp hearly
  obtain ⟨e', he', hyes⟩ := Option.map_eq_some_iff.mp hlate
  have hfirst : outrun.Found 18 4 (.requiring shortText) (.ids [shortTexts.id]) :=
    ⟨rfl, ⟨4, rfl, rfl⟩, rfl, nofun⟩
  have hsecond : ((outrun.proc? 20 5).bind Work.reply?).any Reply.isFound = true := by
    decide +kernel
  obtain ⟨r, hr, hfound⟩ := exists_reply hsecond
  have hr' : outrun.Found 20 5 (.requiring shortText) r :=
    ⟨rfl, ⟨5, rfl, rfl⟩, hr, Reply.ne_of_isFound hfound⟩
  have hpanic : outrun.proc? 22 3 = some (.ended (.panicked (.text "types gone"))) := rfl
  obtain ⟨hanswered, hidle⟩ := hpanicked 3 3 22 _ ⟨rfl, rfl⟩ hpanic
  have hcells : outrun.cells 22 = outrun.cells 21 := by
    have hcue : outrun.cue 21 = .move 3 false (telling (.panicked (.text "types gone"))) := rfl
    obtain h | ⟨i, w, fired, answer, q, hm⟩ := cells_succ (E := outrun) 21
    · exact h
    · cases hcue.symm.trans hm.cue
      exact hidle 21 w _ _ q hm
  exact ⟨⟨e, e', he, he', hno, hyes, halike 17 19 e e' he he'⟩,
    ⟨hfirst, r, hr', hagree _ 20 5 r 18 4 _ hr' hfirst⟩, hpanic, hanswered, hcells⟩

end Execution

end IndexCoordinator
