import IndexCoordinator.Interleaving
import Mathlib.Data.List.Perm.Basic
import Mathlib.Data.Nat.Init

/-!
# Executions

A run that goes on in time.  At every moment a `Cue` says what happens: nothing, a new process
comes in, or one process moves, with or without its token fired and with given answers of the
collaborators.  The cues decide everything, so an execution is its first cells and its cues.

* `Run.follow`      the run after one cue;
* `Execution`       first cells and a cue for every moment; `Execution.run` is the run at a moment;
* `Execution.reachable`, `Run.Reachable.exists_execution`   the runs of executions are exactly the
                    reachable runs;
* `Execution.proc_succ`, `Execution.proc_of_succ`   one moment seen from one process;
* `Kept`            what holds of a process since it came in;
* `Execution.exists_extension`   an execution can go on as any moment allows;
* `Execution.cut`, `Execution.andThen`   executions that leave another at a moment;
* `Execution.CallEnds`   a call of a process ends with an answer.
-/

namespace IndexCoordinator

variable {σ π : Type}

/-- how collaborators answer -/
abbrev Answering := (r : Request) → Outcome r.Answer

/-- every call succeeds, and the extension host lists given descriptors -/
def Answering.granting (descriptors : List IndexDescriptor) : Answering
  | .listDescriptors => .returned (.ok descriptors)
  | .openIndex _ => .returned (.ok ())
  | .registeredFileTypes => .returned []
  | .indexUnsaved _ _ => .returned ()
  | .deleteStaleIds => .returned ()
  | .bringUpToDate => .returned ()
  | .dispose => .returned ()

namespace Move

def under {α : Type} (answer : Answering) : Move α → Option α
  | .blocked => none
  | .act q => some q
  | .call r k => some (k (answer r))

section
variable {α β : Type} (answer : Answering)

@[simp] theorem under_act (q : α) : (act q).under answer = some q := rfl

@[simp] theorem under_call (r : Request) (k : Outcome r.Answer → α) :
    (call r k).under answer = some (k (answer r)) := rfl

@[simp] theorem under_awaiting (r : Request) (k : Outcome r.Answer → Progress σ π) :
    (awaiting r k).under answer
      = some ((k (answer r)).noting [.left r (r.ending (answer r))]) := rfl

@[simp] theorem under_map (f : α → β) (m : Move α) :
    (m.map f).under answer = (m.under answer).map f := by
  cases m <;> rfl

end

end Move

namespace Run

section
variable (r : Run σ π) (p : π) (q : Progress σ π) (i : Nat)

@[simp] theorem shared_commit : (r.commit i q).shared = q.shared := rfl

@[simp] theorem trace_commit : (r.commit i q).trace = r.trace ++ q.events := rfl

@[simp] theorem shared_invoke : (r.invoke p).shared = r.shared := rfl

@[simp] theorem procs_invoke : (r.invoke p).procs = r.procs ++ [p] := rfl

theorem procs_commit : (r.commit i q).procs = r.procs.set i q.self ++ q.spawned := rfl

end

/-- **One process moves and the others stay.** -/
theorem exists_others {r : Run σ π} {i : Nat} {p : π} (h : r.procs[i]? = some p) :
    ∃ others : List π, r.procs.Perm (p :: others) ∧
      ∀ q : Progress σ π, (r.commit i q).procs.Perm (q.self :: (others ++ q.spawned)) := by
  obtain ⟨hi, rfl⟩ := List.getElem?_eq_some_iff.mp h
  refine ⟨r.procs.eraseIdx i, (List.getElem_cons_eraseIdx_perm hi).symm, fun q => ?_⟩
  rw [procs_commit]
  exact (List.set_perm_cons_eraseIdx hi q.self).append_right q.spawned

theorem mem_of_commit {r : Run σ π} {i : Nat} {q : Progress σ π} {x : π}
    (hx : x ∈ (r.commit i q).procs) : x ∈ q.self :: q.spawned ∨ x ∈ r.procs := by
  obtain hx | hx := List.mem_append.mp hx
  · obtain hx | rfl := List.mem_or_eq_of_mem_set hx
    · exact .inr hx
    · exact .inl List.mem_cons_self
  · exact .inl (List.mem_cons_of_mem _ hx)

theorem mem_commit {r : Run σ π} {i : Nat} {p x : π} {q : Progress σ π}
    (h : r.procs[i]? = some p) (hx : x ∈ q.self :: q.spawned) : x ∈ (r.commit i q).procs := by
  obtain ⟨hi, _⟩ := List.getElem?_eq_some_iff.mp h
  obtain rfl | hx := List.mem_cons.mp hx
  · exact List.mem_append_left _ (List.mem_set hi q.self)
  · exact List.mem_append_right _ hx

theorem Step.exists_under {next : Program σ π} {r r' : Run σ π} (h : Step next r r') :
    ∃ i p fired answer q, r.procs[i]? = some p ∧
      (next fired r.shared p).under answer = some q ∧ r' = r.commit i q := by
  cases h with
  | @act i p fired q hp hn =>
    exact ⟨i, p, fired, fun _ => .panicked .other, q, hp, by rw [hn]; rfl, rfl⟩
  | @call i p fired req k a hp hn =>
    classical
    let answer : Answering := fun x => if e : x = req then e ▸ a else .panicked .other
    refine ⟨i, p, fired, answer, k a, hp, ?_, rfl⟩
    have ha : answer req = a := by simp [answer]
    rw [hn, Move.under_call, ha]

theorem Step.of_under {next : Program σ π} {r : Run σ π} {i : Nat} {p : π} {fired : Bool}
    {answer : Answering} {q : Progress σ π} (hp : r.procs[i]? = some p)
    (hq : (next fired r.shared p).under answer = some q) : Step next r (r.commit i q) := by
  cases hn : next fired r.shared p with
  | blocked => rw [hn] at hq; cases hq
  | act q' =>
    rw [hn] at hq
    cases hq
    exact .act hp hn
  | call req k =>
    rw [hn] at hq
    cases hq
    exact .call _ hp hn

end Run

/-- what happens at one moment -/
inductive Cue (π : Type) where
  | rest
  | enter (p : π)
  | move (i : Nat) (fired : Bool) (answer : Answering)

/-- the run after one cue; a process that cannot move stays where it is -/
def Run.follow (next : Program σ π) (r : Run σ π) : Cue π → Run σ π
  | .rest => r
  | .enter p => r.invoke p
  | .move i fired answer =>
    match r.procs[i]? with
    | none => r
    | some p =>
      match (next fired r.shared p).under answer with
      | none => r
      | some q => r.commit i q

theorem Run.follow_move {next : Program σ π} {r : Run σ π} {i : Nat} {p : π} {fired : Bool}
    {answer : Answering} {q : Progress σ π} (hp : r.procs[i]? = some p)
    (hq : (next fired r.shared p).under answer = some q) :
    r.follow next (.move i fired answer) = r.commit i q := by
  simp only [Run.follow, hp, hq]

theorem Run.follow_stuck {next : Program σ π} {r : Run σ π} {i : Nat} {p : π} {fired : Bool}
    {answer : Answering} (hp : r.procs[i]? = some p)
    (hq : (next fired r.shared p).under answer = none) :
    r.follow next (.move i fired answer) = r := by
  simp only [Run.follow, hp, hq]

def Run.after (next : Program σ π) (s : σ) (cue : Nat → Cue π) : Nat → Run σ π
  | 0 => ⟨s, [], []⟩
  | t + 1 => (Run.after next s cue t).follow next (cue t)

/-- a run in time: the first cells, and what happens at every moment -/
structure Execution (next : Program σ π) (starts : σ → π → Prop) (initial : σ → Prop) where
  first : σ
  cue : Nat → Cue π
  isInitial : initial first
  mayEnter : ∀ t p, cue t = .enter p → starts (Run.after next first cue t).shared p

namespace Execution

variable {next : Program σ π} {starts : σ → π → Prop} {initial : σ → Prop}
  (E : Execution next starts initial)

def run (t : Nat) : Run σ π := Run.after next E.first E.cue t

def cells (t : Nat) : σ := (E.run t).shared

/-- where a process stands at a moment -/
def proc? (t i : Nat) : Option π := (E.run t).procs[i]?

/-- a process comes in at a moment and has a number from then on -/
def Enters (t i : Nat) (p : π) : Prop := E.cue t = .enter p ∧ (E.run t).procs.length = i

/-- at a moment a call of a process ends with an answer -/
def CallEnds (t i : Nat) (r : Request) (a : Outcome r.Answer) : Prop :=
  ∃ p fired answer k, E.proc? t i = some p ∧ E.cue t = .move i fired answer ∧
    next fired (E.cells t) p = .call r k ∧ answer r = a

/-- a call of a process has ended with an answer before a moment -/
def Answered (t i : Nat) (r : Request) (a : Outcome r.Answer) : Prop :=
  ∃ u, u < t ∧ E.CallEnds u i r a

theorem Answered.mono {E : Execution next starts initial} {t u i : Nat} {r : Request}
    {a : Outcome r.Answer} (h : E.Answered t i r a) (htu : t ≤ u) : E.Answered u i r a := by
  obtain ⟨v, hv, hends⟩ := h
  exact ⟨v, Nat.lt_of_lt_of_le hv htu, hends⟩

theorem mem_of_getD {cues : List (Cue π)} {t : Nat} {c : Cue π} (h : cues.getD t .rest = c)
    (hc : c ≠ .rest) : c ∈ cues := by
  rw [List.getD_eq_getElem?_getD] at h
  cases ht : cues[t]? with
  | none =>
    rw [ht] at h
    exact absurd h.symm hc
  | some c' =>
    rw [ht] at h
    obtain rfl : c' = c := h
    exact List.mem_of_getElem? ht

/-- the execution with finitely many cues, after which nothing happens -/
def ofList (first : σ) (cues : List (Cue π)) (hi : initial first)
    (he : ∀ p, .enter p ∈ cues → ∀ s, starts s p) : Execution next starts initial where
  first := first
  cue t := cues.getD t .rest
  isInitial := hi
  mayEnter t p h := he p (mem_of_getD h (by simp)) _

theorem CallEnds.exists_cue {first : σ} {cues : List (Cue π)} {hi : initial first}
    {he : ∀ p, .enter p ∈ cues → ∀ s, starts s p} {t i : Nat} {r : Request} {a : Outcome r.Answer}
    (h : (ofList first cues hi he : Execution next starts initial).CallEnds t i r a) :
    ∃ fired answer, .move i fired answer ∈ cues ∧ answer r = a := by
  obtain ⟨_, fired, answer, _, _, hcue, _, ha⟩ := h
  exact ⟨fired, answer, mem_of_getD hcue nofun, ha⟩

theorem run_zero : E.run 0 = ⟨E.first, [], []⟩ := rfl

theorem run_succ (t : Nat) : E.run (t + 1) = (E.run t).follow next (E.cue t) := rfl

/-! ## one moment -/

/-- a process moves at a moment: where it stood and what its move led to -/
structure Moves (t i : Nat) (p : π) (fired : Bool) (answer : Answering) (q : Progress σ π) :
    Prop where
  cue : E.cue t = .move i fired answer
  proc : E.proc? t i = some p
  leads : (next fired (E.cells t) p).under answer = some q
  run : E.run (t + 1) = (E.run t).commit i q

variable {E}

theorem tick (t : Nat) :
    E.run (t + 1) = E.run t ∨
    (∃ p, E.Enters t (E.run t).procs.length p ∧ starts (E.cells t) p ∧
      E.run (t + 1) = (E.run t).invoke p) ∨
    ∃ i p fired answer q, E.Moves t i p fired answer q := by
  have h := E.run_succ t
  cases hc : E.cue t with
  | rest =>
    rw [hc] at h
    exact .inl h
  | enter p =>
    rw [hc] at h
    exact .inr (.inl ⟨p, ⟨hc, rfl⟩, E.mayEnter t p hc, h⟩)
  | move i fired answer =>
    rw [hc] at h
    unfold Run.follow at h
    cases hp : (E.run t).procs[i]? with
    | none =>
      simp only [hp] at h
      exact .inl h
    | some p =>
      simp only [hp] at h
      cases hq : (next fired (E.run t).shared p).under answer with
      | none =>
        simp only [hq] at h
        exact .inl h
      | some q =>
        simp only [hq] at h
        exact .inr (.inr ⟨i, p, fired, answer, q, ⟨hc, hp, hq, h⟩⟩)

theorem Moves.cells_succ {t i : Nat} {p : π} {fired : Bool} {answer : Answering}
    {q : Progress σ π} (h : E.Moves t i p fired answer q) : E.cells (t + 1) = q.shared := by
  unfold cells
  rw [h.run, Run.shared_commit]

theorem Moves.answered {t i : Nat} {p : π} {fired : Bool} {answer : Answering}
    {q : Progress σ π} (h : E.Moves t i p fired answer q) {r : Request}
    {k : Outcome r.Answer → Progress σ π} (hn : next fired (E.cells t) p = .call r k) :
    E.Answered (t + 1) i r (answer r) :=
  ⟨t, Nat.lt_succ_self t, p, fired, answer, k, h.proc, h.cue, hn, rfl⟩

theorem cells_succ (t : Nat) :
    E.cells (t + 1) = E.cells t ∨ ∃ i p fired answer q, E.Moves t i p fired answer q := by
  obtain h | ⟨p, _, _, h⟩ | h := tick (E := E) t
  · exact .inl (congrArg Run.shared h)
  · left
    unfold cells
    rw [h, Run.shared_invoke]
  · exact .inr h

theorem reachable (t : Nat) : Run.Reachable next starts initial (E.run t) := by
  induction t with
  | zero => exact .start E.isInitial
  | succ t ih =>
    obtain h | ⟨p, _, hp, h⟩ | ⟨i, p, fired, answer, q, h⟩ := tick (E := E) t
    · rw [h]; exact ih
    · rw [h]; exact .invoke ih hp
    · rw [h.run]; exact .step ih (.of_under h.proc h.leads)

theorem proc?_lt {t i : Nat} {p : π} (h : E.proc? t i = some p) : i < (E.run t).procs.length :=
  (List.getElem?_eq_some_iff.mp h).1

theorem Moves.proc_succ {t i j : Nat} {p : π} {fired : Bool} {answer : Answering}
    {q : Progress σ π} (h : E.Moves t i p fired answer q) (hj : j < (E.run t).procs.length) :
    E.proc? (t + 1) j = if j = i then some q.self else E.proc? t j := by
  have hlen : j < ((E.run t).procs.set i q.self).length := by simpa using hj
  show (E.run (t + 1)).procs[j]? = _
  rw [h.run, Run.procs_commit, List.getElem?_append_left hlen, List.getElem?_set]
  by_cases e : i = j
  · subst e
    simp [hj]
  · have e' : j ≠ i := fun h => e h.symm
    simp [e, e', proc?]

theorem Moves.self_succ {t i : Nat} {p : π} {fired : Bool} {answer : Answering}
    {q : Progress σ π} (h : E.Moves t i p fired answer q) : E.proc? (t + 1) i = some q.self := by
  rw [h.proc_succ (proc?_lt h.proc), if_pos rfl]

theorem Moves.mem_succ {t i : Nat} {p x : π} {fired : Bool} {answer : Answering}
    {q : Progress σ π} (h : E.Moves t i p fired answer q) (hx : x ∈ q.self :: q.spawned) :
    x ∈ (E.run (t + 1)).procs :=
  h.run ▸ Run.mem_commit h.proc hx

theorem proc_succ {t i : Nat} {p : π} (h : E.proc? t i = some p) :
    E.proc? (t + 1) i = some p ∨ ∃ fired answer q, E.Moves t i p fired answer q := by
  obtain h' | ⟨p', _, _, h'⟩ | ⟨j, p', fired, answer, q, hm⟩ := tick (E := E) t
  · left
    unfold proc?
    rw [h']
    exact h
  · left
    unfold proc?
    rw [h', Run.procs_invoke, List.getElem?_append_left (proc?_lt h)]
    exact h
  · by_cases e : i = j
    · subst e
      have hp : p = p' := Option.some.inj (h.symm.trans hm.proc)
      subst hp
      exact .inr ⟨fired, answer, q, hm⟩
    · left
      rw [hm.proc_succ (proc?_lt h), if_neg e]
      exact h

/-- where a process comes from: it stood there before, has moved, has come in, or was started by
the move of another -/
theorem proc_of_succ {t i : Nat} {p' : π} (h : E.proc? (t + 1) i = some p') :
    E.proc? t i = some p' ∨
    (∃ p fired answer q, E.Moves t i p fired answer q ∧ q.self = p') ∨
    (E.Enters t i p' ∧ starts (E.cells t) p') ∨
    ∃ j p fired answer q, E.Moves t j p fired answer q ∧ p' ∈ q.spawned ∧
      (E.run t).procs.length ≤ i := by
  obtain h' | ⟨p, he, hs, h'⟩ | ⟨j, p, fired, answer, q, hm⟩ := tick (E := E) t
  · left
    unfold proc? at h
    rw [h'] at h
    exact h
  · unfold proc? at h
    rw [h', Run.procs_invoke] at h
    by_cases hi : i < (E.run t).procs.length
    · rw [List.getElem?_append_left hi] at h
      exact .inl h
    · obtain ⟨hlt, hp⟩ := List.getElem?_eq_some_iff.mp h
      simp only [List.length_append, List.length_cons, List.length_nil] at hlt
      have e : i = (E.run t).procs.length := by omega
      subst e
      rw [List.getElem_concat_length] at hp
      · subst hp
        exact .inr (.inr (.inl ⟨he, hs⟩))
      · rfl
  · by_cases hi : i < (E.run t).procs.length
    · rw [hm.proc_succ hi] at h
      by_cases e : i = j
      · subst e
        rw [if_pos rfl] at h
        exact .inr (.inl ⟨p, fired, answer, q, hm, Option.some.inj h⟩)
      · rw [if_neg e] at h
        exact .inl h
    · unfold proc? at h
      have hlen : ((E.run t).procs.set j q.self).length ≤ i := by simpa using hi
      rw [hm.run, Run.procs_commit, List.getElem?_append_right hlen] at h
      exact .inr (.inr (.inr ⟨j, p, fired, answer, q, hm, List.mem_of_getElem? h, by omega⟩))

theorem Enters.proc_succ {t i : Nat} {p : π} (h : E.Enters t i p) :
    E.proc? (t + 1) i = some p := by
  obtain ⟨hc, rfl⟩ := h
  show (E.run (t + 1)).procs[_]? = _
  rw [E.run_succ, hc]
  simp [Run.follow]

theorem Moves.of_cue {t i : Nat} {p : π} {fired : Bool} {answer : Answering} {q : Progress σ π}
    (hc : E.cue t = .move i fired answer) (hp : E.proc? t i = some p)
    (hq : (next fired (E.cells t) p).under answer = some q) : E.Moves t i p fired answer q := by
  refine ⟨hc, hp, hq, ?_⟩
  rw [E.run_succ, hc]
  exact Run.follow_move hp hq

theorem run_of_blocked {t i : Nat} {p : π} {fired : Bool} {answer : Answering}
    (hc : E.cue t = .move i fired answer) (hp : E.proc? t i = some p)
    (hq : (next fired (E.cells t) p).under answer = none) : E.run (t + 1) = E.run t := by
  rw [E.run_succ, hc]
  exact Run.follow_stuck hp hq

theorem CallEnds.moves {t i : Nat} {r : Request} {a : Outcome r.Answer} (h : E.CallEnds t i r a) :
    ∃ p fired answer k, E.Moves t i p fired answer (k a) ∧
      next fired (E.cells t) p = .call r k ∧ answer r = a := by
  obtain ⟨p, fired, answer, k, hp, hc, hn, rfl⟩ := h
  have hq : (next fired (E.cells t) p).under answer = some (k (answer r)) := by rw [hn]; rfl
  exact ⟨p, fired, answer, k, .of_cue hc hp hq, hn, rfl⟩

theorem length_succ (t : Nat) : (E.run t).procs.length ≤ (E.run (t + 1)).procs.length := by
  obtain h | ⟨p, _, _, h⟩ | ⟨i, p, fired, answer, q, h⟩ := tick (E := E) t
  · exact h ▸ Nat.le_refl _
  · rw [h]; simp
  · rw [h.run, Run.procs_commit]; simp

theorem length_mono {t u : Nat} (h : t ≤ u) :
    (E.run t).procs.length ≤ (E.run u).procs.length := by
  induction u, h using Nat.le_induction with
  | base => exact Nat.le_refl _
  | succ u _ ih => exact Nat.le_trans ih (length_succ u)

theorem Enters.lt_of_proc {t u i : Nat} {p p' : π} (h : E.Enters t i p)
    (hp : E.proc? u i = some p') : t < u := by
  by_contra hle
  have hlen := length_mono (E := E) (Nat.le_of_not_lt hle)
  have hlt := proc?_lt hp
  obtain ⟨_, hi⟩ := h
  omega

theorem Enters.unique {t u i : Nat} {p p' : π} (h : E.Enters t i p) (h' : E.Enters u i p') :
    t = u ∧ p = p' := by
  have hle {t u : Nat} {p p' : π} (h : E.Enters t i p) (h' : E.Enters u i p') : u ≤ t := by
    by_contra hlt
    have hsucc : t + 1 ≤ u := Nat.lt_of_not_le hlt
    have hlen := length_mono (E := E) hsucc
    have hi := proc?_lt h.proc_succ
    rw [← h'.2] at hi
    omega
  obtain rfl := Nat.le_antisymm (hle h' h) (hle h h')
  have hcue := h.1.symm.trans h'.1
  exact ⟨rfl, by cases hcue; rfl⟩

end Execution

/-! ## what holds of a process since it came in -/

/-- what holds of a process that comes in, and of where it stands later, whoever moves; nobody
starts another process -/
structure Kept (next : Program σ π) (starts : σ → π → Prop) (R : σ → π → π → Prop) : Prop where
  fresh {s : σ} {p : π} : starts s p → R s p p
  spawned {fired : Bool} {answer : Answering} {s : σ} {p : π} {q : Progress σ π} :
    (next fired s p).under answer = some q → q.spawned = []
  self {fired : Bool} {answer : Answering} {s : σ} {p p₀ : π} {q : Progress σ π} :
    (next fired s p).under answer = some q → R s p₀ p → R q.shared p₀ q.self
  others {fired : Bool} {answer : Answering} {s : σ} {p p₀ p' : π} {q : Progress σ π} :
    (next fired s p).under answer = some q → R s p₀ p' → R q.shared p₀ p'

namespace Kept

variable {next : Program σ π} {starts : σ → π → Prop} {initial : σ → Prop}
  {E : Execution next starts initial} {R : σ → π → π → Prop} {t i : Nat} {p : π}

/-- **Every process has come in**, and stands where it can stand now. -/
theorem exists_entry (hR : Kept next starts R) (h : E.proc? t i = some p) :
    ∃ e p₀, e < t ∧ E.Enters e i p₀ ∧ R (E.cells t) p₀ p := by
  induction t generalizing p with
  | zero => cases h
  | succ t ih =>
    obtain h' | ⟨p', fired, answer, q, hm, rfl⟩ | ⟨he, hs⟩ | ⟨j, p', fired, answer, q, hm, hx, _⟩ :=
      Execution.proc_of_succ h
    · obtain ⟨e, p₀, he, hin, hp⟩ := ih h'
      refine ⟨e, p₀, Nat.lt_succ_of_lt he, hin, ?_⟩
      obtain hsame | ⟨j, p', fired, answer, q, hm⟩ := Execution.cells_succ (E := E) t
      · exact hsame ▸ hp
      · exact hm.cells_succ ▸ hR.others hm.leads hp
    · obtain ⟨e, p₀, he, hin, hp⟩ := ih hm.proc
      exact ⟨e, p₀, Nat.lt_succ_of_lt he, hin, hm.cells_succ ▸ hR.self hm.leads hp⟩
    · have hcells : E.cells (t + 1) = E.cells t := by
        unfold Execution.cells
        rw [E.run_succ, he.1]
        rfl
      exact ⟨t, p, Nat.lt_succ_self t, he, hcells ▸ hR.fresh hs⟩
    · rw [hR.spawned hm.leads] at hx
      cases hx

theorem of_enters (hR : Kept next starts R) {e : Nat} {p₀ : π} (he : E.Enters e i p₀)
    (h : E.proc? t i = some p) : R (E.cells t) p₀ p := by
  obtain ⟨_, p₁, _, he', hp⟩ := hR.exists_entry h
  obtain ⟨_, rfl⟩ := he.unique he'
  exact hp

end Kept

/-! ## events -/

section
variable {next : Program σ π} {starts : σ → π → Prop} {initial : σ → Prop}
  {E : Execution next starts initial}

namespace Execution

theorem trace_mono {t u : Nat} (h : t ≤ u) : (E.run t).trace <+: (E.run u).trace := by
  induction u, h using Nat.le_induction with
  | base => exact List.prefix_refl _
  | succ u _ ih =>
    refine ih.trans ?_
    have hsame (h : (E.run (u + 1)).trace = (E.run u).trace) :
        (E.run u).trace <+: (E.run (u + 1)).trace := ⟨[], by rw [List.append_nil, h]⟩
    obtain he | ⟨p, _, _, he⟩ | ⟨i, p, fired, answer, q, hm⟩ := tick (E := E) u
    · exact hsame (congrArg Run.trace he)
    · exact hsame ((congrArg Run.trace he).trans rfl)
    · rw [hm.run, Run.trace_commit]
      exact List.prefix_append _ _

theorem exists_move_of_event {t : Nat} {e : Event} (h : e ∈ (E.run t).trace) :
    ∃ u i p fired answer q, u < t ∧ E.Moves u i p fired answer q ∧ e ∈ q.events := by
  induction t with
  | zero => cases h
  | succ t ih =>
    have hbefore (h : e ∈ (E.run t).trace) :
        ∃ u i p fired answer q, u < t + 1 ∧ E.Moves u i p fired answer q ∧ e ∈ q.events := by
      obtain ⟨u, i, p, fired, answer, q, hu, hm, he⟩ := ih h
      exact ⟨u, i, p, fired, answer, q, Nat.lt_succ_of_lt hu, hm, he⟩
    obtain he | ⟨p, _, _, he⟩ | ⟨i, p, fired, answer, q, hm⟩ := tick (E := E) t
    · exact hbefore (he ▸ h)
    · rw [he] at h
      exact hbefore h
    · rw [hm.run, Run.trace_commit] at h
      obtain h | h := List.mem_append.mp h
      · exact hbefore h
      · exact ⟨t, i, p, fired, answer, q, Nat.lt_succ_self t, hm, h⟩

end Execution

end

/-! ## executions and reachable runs -/

namespace Run

variable {next : Program σ π} {starts : σ → π → Prop} {initial : σ → Prop}

/-- what one moment can make of a run: nothing, a new process comes in, or a process moves -/
def Ticks (next : Program σ π) (starts : σ → π → Prop) (r r' : Run σ π) : Prop :=
  r' = r ∨ (∃ p, starts r.shared p ∧ r' = r.invoke p) ∨ Step next r r'

theorem after_congr {s : σ} {cue cue' : Nat → Cue π} {t : Nat}
    (h : ∀ u, u < t → cue u = cue' u) : after next s cue t = after next s cue' t := by
  induction t with
  | zero => rfl
  | succ t ih =>
    show (after next s cue t).follow next (cue t) = (after next s cue' t).follow next (cue' t)
    rw [ih fun u hu => h u (by omega), h t (by omega)]

end Run

namespace Execution

variable {next : Program σ π} {starts : σ → π → Prop} {initial : σ → Prop}

/-- the execution that follows another up to a moment, has a given cue then and rests afterwards -/
def cut (E : Execution next starts initial) (t : Nat) (c : Cue π)
    (hc : ∀ p, c = .enter p → starts (E.cells t) p) : Execution next starts initial where
  first := E.first
  cue u := if u < t then E.cue u else if u = t then c else .rest
  isInitial := E.isInitial
  mayEnter u p h := by
    have hsame (hle : u ≤ t) : Run.after next E.first
        (fun v => if v < t then E.cue v else if v = t then c else .rest) u = E.run u :=
      Run.after_congr fun v hv => if_pos (by omega)
    by_cases hu : u < t
    · rw [if_pos hu] at h
      rw [hsame (by omega)]
      exact E.mayEnter u p h
    · rw [if_neg hu] at h
      by_cases e : u = t
      · subst e
        rw [if_pos rfl] at h
        rw [hsame (Nat.le_refl u)]
        exact hc p h
      · rw [if_neg e] at h
        cases h

theorem run_cut_le (E : Execution next starts initial) (t : Nat) (c : Cue π)
    (hc : ∀ p, c = .enter p → starts (E.cells t) p) {u : Nat} (hu : u ≤ t) :
    (E.cut t c hc).run u = E.run u := Run.after_congr fun v hv => if_pos (by omega)

theorem cue_cut_lt (E : Execution next starts initial) (t : Nat) (c : Cue π)
    (hc : ∀ p, c = .enter p → starts (E.cells t) p) {u : Nat} (hu : u < t) :
    (E.cut t c hc).cue u = E.cue u := if_pos hu

theorem cue_cut (E : Execution next starts initial) (t : Nat) (c : Cue π)
    (hc : ∀ p, c = .enter p → starts (E.cells t) p) : (E.cut t c hc).cue t = c := by
  show (if t < t then _ else if t = t then c else _) = c
  simp

theorem run_cut (E : Execution next starts initial) (t : Nat) (c : Cue π)
    (hc : ∀ p, c = .enter p → starts (E.cells t) p) :
    (E.cut t c hc).run (t + 1) = (E.run t).follow next c := by
  rw [run_succ, E.run_cut_le t c hc (Nat.le_refl t), E.cue_cut t c hc]

/-- the execution that follows another up to a moment, goes on with finitely many cues and rests
afterwards -/
def andThen (E : Execution next starts initial) (t : Nat) (cues : List (Cue π))
    (he : ∀ p, .enter p ∈ cues → ∀ s, starts s p) : Execution next starts initial where
  first := E.first
  cue u := if u < t then E.cue u else cues.getD (u - t) .rest
  isInitial := E.isInitial
  mayEnter u p h := by
    by_cases hu : u < t
    · rw [if_pos hu] at h
      have hsame : Run.after next E.first
          (fun v => if v < t then E.cue v else cues.getD (v - t) .rest) u = E.run u :=
        Run.after_congr fun v hv => if_pos (Nat.lt_trans hv hu)
      rw [hsame]
      exact E.mayEnter u p h
    · rw [if_neg hu] at h
      exact he p (mem_of_getD h (by simp)) _

/-- **An execution can go on as any moment allows.** -/
theorem exists_extension (E : Execution next starts initial) {t : Nat} {r : Run σ π}
    (h : Run.Ticks next starts (E.run t) r) :
    ∃ E' : Execution next starts initial, (∀ u, u ≤ t → E'.run u = E.run u) ∧
      E'.run (t + 1) = r := by
  obtain rfl | ⟨p, hp, rfl⟩ | hst := h
  · exact ⟨E.cut t .rest nofun, fun u hu => E.run_cut_le t _ _ hu, E.run_cut ..⟩
  · refine ⟨E.cut t (.enter p) (fun p' h => ?_), fun u hu => E.run_cut_le t _ _ hu, E.run_cut ..⟩
    cases h
    exact hp
  · obtain ⟨i, p, fired, answer, q, hp, hq, rfl⟩ := hst.exists_under
    refine ⟨E.cut t (.move i fired answer) nofun, fun u hu => E.run_cut_le t _ _ hu, ?_⟩
    rw [run_cut]
    exact Run.follow_move hp hq

end Execution

theorem Run.Reachable.exists_execution {next : Program σ π} {starts : σ → π → Prop}
    {initial : σ → Prop} {r : Run σ π} (h : Run.Reachable next starts initial r) :
    ∃ (E : Execution next starts initial) (t : Nat), E.run t = r := by
  induction h with
  | @start s hs => exact ⟨⟨s, fun _ => .rest, hs, fun _ _ h => by cases h⟩, 0, rfl⟩
  | @invoke r p _ hp ih =>
    obtain ⟨E, t, rfl⟩ := ih
    obtain ⟨E', _, h⟩ := E.exists_extension (.inr (.inl ⟨p, hp, rfl⟩))
    exact ⟨E', t + 1, h⟩
  | @step r r' _ hst ih =>
    obtain ⟨E, t, rfl⟩ := ih
    obtain ⟨E', _, h⟩ := E.exists_extension (.inr (.inr hst))
    exact ⟨E', t + 1, h⟩

end IndexCoordinator
