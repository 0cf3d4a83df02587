import IndexCoordinator.Promise.Parking
import IndexCoordinator.Proofs.Promise.Winner

/-!
# Wake-ups at a promise

A thread looks and parks in two moves, a future registers before it looks; in between a resolver may
fill the slot and wake the others.  No wake-up is lost.  A thread that is about to park holds the
lock, so that nobody fills the slot until it has parked.  A future that has found nothing registered
before the slot was filled.  So whoever rests has seen no wake-up yet, and there is one when the
resolver has returned.

* `Meeting.Caller.Moves`    the moves of callers;
* `Meeting.Guard`           who holds the lock, and why nobody fills the slot under a parking thread;
* `Meeting.Caller.Fits`     what the position of a caller tells about the wake-ups;
* `Meeting.Orderly`         what every run keeps;
* `Meeting.Woken`           what there is when a resolution has returned true (`Meeting.all_woken`).
-/

namespace IndexCoordinator

namespace Meeting

variable {α : Type}

namespace Visit

def isParked : Visit α → Bool
  | .parked _ => true
  | _ => false

/-- a thread that looks, or rests until it looks again -/
def isThread : Visit α → Bool
  | .entering => true
  | v => v.isParked

theorem isParked_of_isThread {v : Visit α} (h : v.isThread = false) : v.isParked = false := by
  cases v with
  | entering => rfl
  | _ => exact h

end Visit

namespace Caller

inductive Fresh : Caller α → Prop where
  | visit {v : Visit α} : v.Fresh → Fresh (.visiting v)

def Over : Caller α → Prop
  | .visiting v => v.Over
  | .parking => False

def holds : Caller α → Bool
  | .visiting v => v.holds
  | .parking => true

def hasWon : Caller α → Bool
  | .visiting v => v.hasWon
  | .parking => false

/-- the moves of callers: what they make of the promise and where they lead -/
inductive Moves (polls fired : Bool) (m : Meeting α) : Caller α → Meeting α → Caller α → Prop where
  | check : m.locked = false → m.promise.slot = none →
      Moves polls fired m (.visiting .entering) { m with locked := true } .parking
  | park : Moves polls fired m .parking { m with locked := false } (.visiting (.parked m.wakes))
  | stir {seen : Nat} : seen < m.wakes ∨ polls = true →
      Moves polls fired m (.visiting (.parked seen)) m (.visiting .entering)
  | visit {m' : Meeting α} {v v' : Visit α} : v.isParked = false → v'.isParked = false →
      Meeting.Moves fired m v m' v' → Moves polls fired m (.visiting v) m' (.visiting v')

section
variable {polls fired : Bool} {answer : Answering} {m m' : Meeting α} {c c' : Caller α}
  {q : Progress (Meeting α) (Caller α)}

theorem moves_of_visit {v : Visit α} (hv : v.isThread = false)
    (h : ((Meeting.next fired m v).map visit).under answer = some q) :
    Moves polls fired m (.visiting v) q.shared q.self ∧ q.spawned = [] ∧ q.events = [] := by
  rw [Move.under_map, Option.map_eq_some_iff] at h
  obtain ⟨p, hp, rfl⟩ := h
  obtain ⟨hm, hspawned, hevents⟩ := Meeting.moves_of_next hp
  have hv' : p.self.isParked = false := by
    generalize p.self = v' at hm ⊢
    generalize p.shared = m' at hm
    cases hm with
    | look hl =>
      cases hl with
      | park => cases hv
      | _ => rfl
    | _ => rfl
  refine ⟨.visit (Visit.isParked_of_isThread hv) hv' hm, ?_, hevents⟩
  show p.spawned.map _ = []
  rw [hspawned, List.map_nil]

/-- **Every move of a caller is one of these**; it starts nothing and leaves no event. -/
theorem moves_of_next (h : (next polls fired m c).under answer = some q) :
    Moves polls fired m c q.shared q.self ∧ q.spawned = [] ∧ q.events = [] := by
  cases c with
  | parking =>
    cases h
    exact ⟨.park, rfl, rfl⟩
  | visiting v =>
    cases v with
    | entering =>
      simp only [next] at h
      split at h
      · cases h
      · next hl =>
        have hl' : m.locked = false := Bool.eq_false_iff.mpr hl
        cases hs : m.promise.slot with
        | some a =>
          rw [Promise.look_of_slot hs] at h
          cases h
          exact ⟨.visit rfl rfl (.look (.see hl' hs)), rfl, rfl⟩
        | none =>
          cases fired with
          | true =>
            simp only [Promise.look, hs] at h
            cases h
            exact ⟨.visit rfl rfl (.look (.cancel hl' hs rfl)), rfl, rfl⟩
          | false =>
            simp only [Promise.look, hs] at h
            cases h
            exact ⟨.check hl' hs, rfl, rfl⟩
    | parked seen =>
      simp only [next] at h
      split at h
      · next hwake =>
        cases h
        exact ⟨.stir hwake, rfl, rfl⟩
      · cases h
    | _ => exact moves_of_visit rfl h

/-! ## the lock -/

/-- what a move does to the lock: nothing outside of it, it takes it, it goes on under it, or it
gives it back -/
theorem Moves.lock (h : Moves polls fired m c m' c') :
    (c.holds = false ∧ c'.holds = false ∧ m'.locked = m.locked ∧ m'.promise.slot = m.promise.slot) ∨
    (c.holds = false ∧ c'.holds = true ∧ m.locked = false ∧ m'.locked = true ∧
      (c' = .parking → m'.promise.slot = none)) ∨
    (c.holds = true ∧ c'.holds = true ∧ m'.locked = m.locked ∧ c' ≠ .parking) ∨
    (c.holds = true ∧ c'.holds = false ∧ m'.locked = false) := by
  cases h with
  | check hl hs => exact .inr (.inl ⟨rfl, rfl, hl, rfl, fun _ => hs⟩)
  | park => exact .inr (.inr (.inr ⟨rfl, rfl, rfl⟩))
  | stir => exact .inl ⟨rfl, rfl, rfl, rfl⟩
  | visit _ _ h =>
    cases h with
    | store hl => exact .inr (.inl ⟨rfl, rfl, hl, rfl, nofun⟩)
    | raise => exact .inr (.inr (.inl ⟨rfl, rfl, rfl, nofun⟩))
    | unlock => exact .inr (.inr (.inr ⟨rfl, rfl, rfl⟩))
    | wake => exact .inl ⟨rfl, rfl, rfl, rfl⟩
    | call => exact .inl ⟨rfl, rfl, rfl, rfl⟩
    | look hl => exact .inl ⟨hl.holds.1, hl.holds.2, rfl, rfl⟩

end

end Caller

/-- the callers that hold the lock are at most one, and nobody has filled the slot if it is about to
park -/
inductive Guard (m : Meeting α) : List (Caller α) → Prop where
  | free : m.locked = false → Guard m []
  | held {c : Caller α} : m.locked = true → (c = .parking → m.promise.slot = none) → Guard m [c]

theorem Guard.perm {m : Meeting α} {l l' : List (Caller α)} (h : Guard m l) (hp : l.Perm l') :
    Guard m l' := by
  cases h with
  | free hl =>
    rw [← hp.nil_eq]
    exact .free hl
  | held hl hs =>
    rw [← hp.singleton_eq]
    exact .held hl hs

theorem Guard.congr {m m' : Meeting α} {l : List (Caller α)} (h : Guard m l)
    (hl : m'.locked = m.locked) (hs : m'.promise.slot = m.promise.slot) : Guard m' l := by
  cases h with
  | free h => exact .free (hl.trans h)
  | held h hp => exact .held (hl.trans h) fun hc => hs.trans (hp hc)

/-! ## what positions tell -/

/-- nobody was woken before the slot was filled -/
def Quiet (m : Meeting α) : Prop := m.promise.slot = none → m.wakes = 0 ∧ m.calls = 0

/-- what the position of a caller tells: who rests, or is about to, has seen no wake-up; and the
resolver wakes one kind of waiter after the other, when the slot is filled -/
def Caller.Fits (m : Meeting α) : Caller α → Prop
  | .visiting (.parked seen) => seen = 0
  | .visiting (.looking seen) => seen ≤ m.calls
  | .visiting (.polling seen) => seen = 0
  | .visiting (.doubting seen) => seen = 0
  | .visiting (.sleeping seen) => seen = 0
  | .visiting .raising => m.promise.slot.isSome
  | .visiting .unlocking => m.promise.slot.isSome
  | .visiting .waking => m.promise.slot.isSome
  | .visiting .calling => m.promise.slot.isSome ∧ 0 < m.wakes
  | .visiting (.ended .won) => m.promise.slot.isSome ∧ 0 < m.wakes ∧ 0 < m.calls
  | _ => True

/-- a promise goes on: a filled slot stays filled and the counts do not fall -/
structure GoesOn (m m' : Meeting α) : Prop where
  slot : m.promise.slot.isSome → m'.promise.slot.isSome
  wakes : m.wakes ≤ m'.wakes
  calls : m.calls ≤ m'.calls

namespace Caller

section
variable {polls fired : Bool} {m m' : Meeting α} {c c' : Caller α}

theorem Moves.goesOn (h : Moves polls fired m c m' c') : GoesOn m m' := by
  cases h with
  | check | park | stir => exact ⟨id, Nat.le_refl _, Nat.le_refl _⟩
  | visit _ _ h =>
    cases h with
    | store => exact ⟨fun _ => rfl, Nat.le_refl _, Nat.le_refl _⟩
    | raise | unlock | look => exact ⟨id, Nat.le_refl _, Nat.le_refl _⟩
    | wake => exact ⟨id, Nat.le_succ _, Nat.le_refl _⟩
    | call => exact ⟨id, Nat.le_refl _, Nat.le_succ _⟩

theorem Fits.still (h : c.Fits m) (hm : GoesOn m m') : c.Fits m' := by
  unfold Fits at h ⊢
  split at h
  · exact h
  · exact Nat.le_trans h hm.calls
  · exact h
  · exact h
  · exact h
  · exact hm.slot h
  · exact hm.slot h
  · exact hm.slot h
  · exact ⟨hm.slot h.1, Nat.lt_of_lt_of_le h.2 hm.wakes⟩
  · exact ⟨hm.slot h.1, Nat.lt_of_lt_of_le h.2.1 hm.wakes, Nat.lt_of_lt_of_le h.2.2 hm.calls⟩
  · trivial

theorem Fresh.fits (h : c.Fresh) : c.Fits m := by
  obtain ⟨hv⟩ := h
  cases hv with
  | wait hw => cases hw <;> trivial
  | _ => trivial

theorem Moves.quiet (h : Moves polls fired m c m' c') (hc : c.Fits m) (hq : Quiet m) : Quiet m' := by
  cases h with
  | check | park | stir => exact hq
  | visit _ _ h =>
    cases h with
    | store => exact nofun
    | raise | unlock | look => exact hq
    | wake =>
      intro hs
      rw [Fits, show m.promise.slot = none from hs] at hc
      cases hc
    | call =>
      intro hs
      rw [Fits, show m.promise.slot = none from hs] at hc
      cases hc.1

theorem Moves.fits (h : Moves polls fired m c m' c') (hc : c.Fits m) (hq : Quiet m)
    (hpark : c = .parking → m.promise.slot = none) : c'.Fits m' := by
  cases h with
  | check | stir => trivial
  | park => exact (hq (hpark rfl)).1
  | visit _ hv' h =>
    cases h with
    | store => exact rfl
    | raise => exact hc
    | unlock => exact hc
    | wake => exact ⟨hc, Nat.succ_pos _⟩
    | call => exact ⟨hc.1, hc.2, Nat.succ_pos _⟩
    | look hl =>
      cases hl with
      | lose | see | cancel | stir | find | called | giveUp | get | test => trivial
      | park => cases hv'
      | register => exact Nat.le_refl m.calls
      | miss _ hs => exact Nat.le_zero.mp (Nat.le_trans hc (Nat.le_of_eq (hq hs).2))
      | doubt => exact hc
      | sleep => exact hc
      | rouse => exact hc

/-- **One move under the lock.**  Nobody else holds it before or after. -/
theorem Moves.guard (h : Moves polls fired m c m' c') {others : List (Caller α)}
    (hg : Guard m ((c :: others).filter holds)) : Guard m' ((c' :: others).filter holds) := by
  obtain ⟨hc, hc', hl, hs⟩ | ⟨hc, hc', hl, hl', hs⟩ | ⟨hc, hc', hl, hne⟩ | ⟨hc, hc', hl⟩ := h.lock
  · rw [List.filter_cons_of_neg (by simp [hc])] at hg
    rw [List.filter_cons_of_neg (by simp [hc'])]
    exact hg.congr hl hs
  · rw [List.filter_cons_of_neg (by simp [hc])] at hg
    rw [List.filter_cons_of_pos hc']
    generalize others.filter holds = l at hg
    cases hg with
    | free => exact .held hl' hs
    | held hlocked =>
      rw [hl] at hlocked
      cases hlocked
  · rw [List.filter_cons_of_pos hc] at hg
    rw [List.filter_cons_of_pos hc']
    generalize others.filter holds = l at hg
    cases hg with
    | held hlocked => exact .held (hl.trans hlocked) fun he => absurd he hne
  · rw [List.filter_cons_of_pos hc] at hg
    rw [List.filter_cons_of_neg (by simp [hc'])]
    generalize others.filter holds = l at hg
    cases hg with
    | held => exact .free hl

end

end Caller

/-- what every run of callers keeps -/
structure Orderly (r : Run (Meeting α) (Caller α)) : Prop where
  quiet : Quiet r.shared
  guard : Guard r.shared (r.procs.filter Caller.holds)
  fits : ∀ c ∈ r.procs, c.Fits r.shared

/-- who is about to park has found nothing, and there is nothing yet -/
theorem Orderly.slot_of_parking {r : Run (Meeting α) (Caller α)} (h : Orderly r)
    (hc : .parking ∈ r.procs) : r.shared.promise.slot = none := by
  have hmem : .parking ∈ r.procs.filter Caller.holds := List.mem_filter.mpr ⟨hc, rfl⟩
  have hg := h.guard
  generalize r.procs.filter Caller.holds = l at hg hmem
  cases hg with
  | free => cases hmem
  | held _ hs => exact hs (List.mem_singleton.mp hmem).symm

theorem Orderly.step {polls : Bool} {r r' : Run (Meeting α) (Caller α)} (h : Orderly r)
    (hst : Run.Step (Caller.next polls) r r') : Orderly r' := by
  obtain ⟨i, c, fired, answer, q, hc, hq, rfl⟩ := hst.exists_under
  obtain ⟨hm, hspawned, _⟩ := Caller.moves_of_next hq
  obtain ⟨others, hp, hp'⟩ := Run.exists_others hc
  have hprocs := hp' q
  rw [hspawned, List.append_nil] at hprocs
  have hmem := List.mem_of_getElem? hc
  have hfits := h.fits c hmem
  refine ⟨hm.quiet hfits h.quiet, ?_, fun x hx => ?_⟩
  · exact (hm.guard (h.guard.perm (hp.filter Caller.holds))).perm (hprocs.filter Caller.holds).symm
  · obtain rfl | hx := List.mem_cons.mp (hprocs.mem_iff.mp hx)
    · exact hm.fits hfits h.quiet fun he => h.slot_of_parking (he ▸ hmem)
    · exact (h.fits x (hp.mem_iff.mpr (List.mem_cons_of_mem c hx))).still hm.goesOn

end Meeting

/-- executions at one new promise with any callers, and with poll intervals that end or do not -/
abbrev Parkings (polls : Bool) (α : Type) :=
  Execution (Meeting.Caller.next (α := α) polls) (fun _ c => c.Fresh) fun m => m = {}

namespace Meeting

variable {α : Type} {polls : Bool} {E : Parkings polls α} {t u i j : Nat} {c : Caller α}

theorem moves_of_caller {fired : Bool} {answer : Answering}
    {q : Progress (Meeting α) (Caller α)} (h : E.Moves t i c fired answer q) :
    Caller.Moves polls fired (E.cells t) c (E.cells (t + 1)) q.self := by
  rw [h.cells_succ]
  exact (Caller.moves_of_next h.leads).1

theorem Caller.Fresh.not_holds (h : c.Fresh) : c.holds = false ∧ c.hasWon = false := by
  obtain ⟨hv⟩ := h
  cases hv with
  | wait hw => cases hw <;> exact ⟨rfl, rfl⟩
  | _ => exact ⟨rfl, rfl⟩

theorem orderly (E : Parkings polls α) (t : Nat) : Orderly (E.run t) := by
  refine (E.reachable t).invariant (I := Orderly) (fun m hm => ?_) (fun r c hr hc => ?_)
    (fun r r' hr hst => hr.step hst)
  · subst hm
    exact ⟨fun _ => ⟨rfl, rfl⟩, .free rfl, nofun⟩
  · refine ⟨hr.quiet, ?_, fun x hx => ?_⟩
    · rw [Run.procs_invoke, List.filter_append,
        List.filter_cons_of_neg (by simp [hc.not_holds.1]), List.filter_nil, List.append_nil]
      exact hr.guard
    · obtain hx | hx := List.mem_append.mp hx
      · exact hr.fits x hx
      · obtain rfl := List.mem_singleton.mp hx
        exact hc.fits

theorem fits (h : E.proc? t i = some c) : c.Fits (E.cells t) :=
  (orderly E t).fits c (List.mem_of_getElem? h)

theorem fits_stays (h : c.Fits (E.cells t)) (htu : t ≤ u) : c.Fits (E.cells u) := by
  induction u, htu using Nat.le_induction with
  | base => exact h
  | succ u _ ih =>
    obtain he | ⟨i, _, fired, answer, q, hm⟩ := Execution.cells_succ (E := E) u
    · exact he ▸ ih
    · exact ih.still (moves_of_caller hm).goesOn

/-! ## the winner -/

theorem balanced_winning_callers :
    Run.Balanced (Caller.next (α := α) polls) (fun _ => false) Caller.hasWon vacancies := by
  intro fired answer m c q h
  obtain ⟨hm, hspawned, hevents⟩ := Caller.moves_of_next h
  rw [hspawned, hevents]
  generalize q.shared = m' at hm ⊢
  generalize q.self = c' at hm ⊢
  cases hm with
  | check | park | stir => simp [vacancies, Caller.hasWon, Visit.hasWon]
  | visit _ _ h =>
    cases h with
    | store _ hs => simp [vacancies, Promise.store, Caller.hasWon, Visit.hasWon, hs]
    | look hl => simp [Caller.hasWon, hl.hasWon]
    | _ => simp [vacancies, Promise.raise, Caller.hasWon, Visit.hasWon]

theorem one_winning_caller {c' : Caller α} (hi : E.proc? t i = some c) (hj : E.proc? t j = some c')
    (hc : c.hasWon = true) (hc' : c'.hasWon = true) : i = j := by
  have h := (E.reachable t).balance (n := 1) (fun m hm => by rw [hm]; rfl)
    (fun _ _ hc => hc.not_holds.2) balanced_winning_callers
  exact unique_of_countP_le (p := Caller.hasWon) (by omega) hi hj hc hc'

/-- when a resolution has returned true -/
def Resolved (E : Parkings polls α) (t : Nat) : Prop :=
  ∃ i, E.proc? t i = some (.visiting (.ended .won))

theorem Resolved.mono (h : Resolved E t) (htu : t ≤ u) : Resolved E u := by
  obtain ⟨i, hi⟩ := h
  exact ⟨i, Execution.stays_of_blocked (fun _ _ => rfl) hi htu⟩

theorem Resolved.cells (h : Resolved E t) : (E.cells t).promise.slot.isSome = true ∧
    0 < (E.cells t).wakes ∧ 0 < (E.cells t).calls := by
  obtain ⟨i, hi⟩ := h
  exact fits hi

theorem Resolved.not_parking (h : Resolved E t) : E.proc? t i ≠ some .parking := by
  intro hi
  have hnone : (E.cells t).promise.slot = none :=
    (orderly E t).slot_of_parking (List.mem_of_getElem? hi)
  have hsome := h.cells.1
  rw [hnone] at hsome
  cases hsome

theorem Resolved.free (h : Resolved E t) : (E.cells t).locked = false := by
  obtain ⟨i, hi⟩ := h
  have hg := (orderly E t).guard
  generalize hlist : (E.run t).procs.filter Caller.holds = l at hg
  cases hg with
  | free hl => exact hl
  | @held c =>
    have hmem : c ∈ (E.run t).procs.filter Caller.holds := hlist ▸ List.mem_singleton_self c
    obtain ⟨hc, hholds⟩ := List.mem_filter.mp hmem
    obtain ⟨j, hj⟩ := List.getElem?_of_mem hc
    cases c with
    | parking => exact absurd hj (Resolved.not_parking ⟨i, hi⟩)
    | visiting v =>
      have hw : v.hasWon = true := by
        cases v <;> first | rfl | cases hholds
      obtain rfl := one_winning_caller hi hj rfl hw
      cases hi.symm.trans hj
      cases hholds

/-! ## what is left to do -/

/-- how many moves a caller can still make at most when the promise is resolved -/
def Caller.ahead : Caller α → Nat
  | .visiting (.resolving _) => 1
  | .visiting .raising => 4
  | .visiting .unlocking => 3
  | .visiting .waking => 2
  | .visiting .calling => 1
  | .visiting .entering => 1
  | .parking => 3
  | .visiting (.parked _) => 2
  | .visiting .registering => 2
  | .visiting (.looking _) => 1
  | .visiting (.polling _) => 3
  | .visiting (.doubting _) => 5
  | .visiting (.sleeping _) => 4
  | .visiting .getting => 1
  | .visiting .testing => 1
  | .visiting _ => 0

theorem Caller.Moves.ahead {fired : Bool} {m m' : Meeting α} {c' : Caller α}
    (h : Caller.Moves polls fired m c m' c') (hc : c.Fits m)
    (hs : m.promise.slot.isSome = true) (hcalls : 0 < m.calls) : c'.ahead < c.ahead := by
  cases h with
  | check _ hn =>
    rw [hn] at hs
    cases hs
  | park | stir => simp [Caller.ahead]
  | visit _ hv' h =>
    cases h with
    | store _ hn =>
      rw [hn] at hs
      cases hs
    | raise | unlock | wake | call => simp [Caller.ahead]
    | look hl =>
      cases hl with
      | cancel _ hn | miss _ hn =>
        rw [hn] at hs
        cases hs
      | park => cases hv'
      | doubt hle =>
        cases (show _ = 0 from hc)
        exact absurd hle (Nat.not_le_of_lt hcalls)
      | _ => simp [Caller.ahead]

theorem Resolved.isSome_next (h : Resolved E t) (hfits : c.Fits (E.cells t)) (hne : c.ahead ≠ 0)
    (fired : Bool) (answer : Answering) :
    ((Caller.next polls fired (E.cells t) c).under answer).isSome = true := by
  have hfree := h.free
  obtain ⟨hsome, hwakes, hcalls⟩ := h.cells
  obtain ⟨a, ha⟩ := Option.isSome_iff_exists.mp hsome
  cases c with
  | parking => rfl
  | visiting v =>
    cases v with
    | entering => simp [Caller.next, hfree, Promise.look_of_slot ha]
    | parked seen =>
      cases (show seen = 0 from hfits)
      simp [Caller.next, hwakes]
    | sleeping seen =>
      cases (show seen = 0 from hfits)
      simp [Caller.next, Meeting.next, go, Move.map, hcalls]
    | resolving b => simp [Caller.next, Meeting.next, go, Move.map, hfree, ha]
    | looking seen => simp [Caller.next, Meeting.next, go, Move.map, hfree, ha]
    | getting => simp [Caller.next, Meeting.next, go, Move.map, hfree]
    | got | tested | ended => exact absurd rfl hne
    | _ => rfl

theorem Caller.over_of_ahead (h : c.ahead = 0) : c.Over := by
  cases c with
  | parking => cases h
  | visiting v =>
    cases v with
    | got | tested | ended => exact fun _ _ => rfl
    | _ => cases h

/-- what there is when a resolution has returned true -/
structure Woken (E : Parkings polls α) (t : Nat) : Prop where
  /-- every parked thread has been woken since it parked -/
  parked {i seen : Nat} : E.proc? t i = some (.visiting (.parked seen)) → seen < (E.cells t).wakes
  /-- no thread is about to park -/
  parking {i : Nat} : E.proc? t i ≠ some .parking
  /-- every future that sleeps, or is about to, has been called since it registered -/
  sleeping {i seen : Nat} : E.proc? t i = some (.visiting (.sleeping seen)) ∨
    E.proc? t i = some (.visiting (.doubting seen)) ∨
    E.proc? t i = some (.visiting (.polling seen)) → seen < (E.cells t).calls
  /-- whoever has not ended can move, whether or not its token has fired -/
  awake {i : Nat} {c : Caller α} : E.proc? t i = some c → ¬ c.Over → ∀ fired answer,
    ((Caller.next polls fired (E.cells t) c).under answer).isSome = true
  /-- and ends, unless it is left alone for good -/
  ends {i : Nat} {c : Caller α} : E.Fair → E.proc? t i = some c →
    ∃ u c', t ≤ u ∧ E.proc? u i = some c' ∧ c'.Over

/-- **No wake-up is lost**, whether or not poll intervals end. -/
theorem all_woken (E : Parkings polls α) (h : Resolved E t) : Woken E t where
  parked {i seen} hi := by
    have hseen : seen = 0 := fits hi
    exact hseen ▸ h.cells.2.1
  parking := h.not_parking
  sleeping {i seen} hi := by
    have hseen : seen = 0 := by
      obtain hi | hi | hi := hi <;> exact fits hi
    exact hseen ▸ h.cells.2.2
  awake hi hover fired answer :=
    h.isSome_next (fits hi) (fun hz => hover (Caller.over_of_ahead hz)) fired answer
  ends {i c} hfair hi := by
    have hgo (u : Nat) (c : Caller α) (htu : t ≤ u) (hc : E.proc? u i = some c) (hne : c.ahead ≠ 0)
        (v : Nat) (huv : u ≤ v) := (h.mono (Nat.le_trans htu huv)).isSome_next
      (fits_stays (fits hc) huv) hne
    have hrank (u : Nat) (c : Caller α) (fired : Bool) (answer : Answering)
        (q : Progress (Meeting α) (Caller α)) (htu : t ≤ u) (hm : E.Moves u i c fired answer q)
        (_ : c.ahead ≠ 0) : q.self.ahead < c.ahead := by
      obtain ⟨hs, _, hcalls⟩ := (h.mono htu).cells
      exact (moves_of_caller hm).ahead (fits hm.proc) hs hcalls
    obtain ⟨u, c', htu, hp, hz⟩ := hfair.exists_over Caller.ahead (fun c => c.ahead = 0) hgo hrank hi
    exact ⟨u, c', htu, hp, Caller.over_of_ahead hz⟩

/-- poll intervals do not end.  The resolver comes when a thread is about to park, and has to wait
for the lock; it fills the slot when a future has looked and does not sleep yet. -/
def gathering : Parkings false Nat :=
  .ofList {}
    ([.visiting .entering, .visiting .registering, .visiting (.resolving 1)].map .enter ++
      [0, 2, 0, 1, 1, 2, 1, 2, 1, 2, 2, 2].map (.move · false (.granting [])))
    rfl fun c hc _ => by
      obtain hc | hc := List.mem_append.mp hc
      · obtain ⟨c', hmem, heq⟩ := List.mem_map.mp hc
        cases heq
        simp only [List.mem_cons, List.not_mem_nil, or_false] at hmem
        obtain rfl | rfl | rfl := hmem
        · exact ⟨.wait .thread⟩
        · exact ⟨.wait .future⟩
        · exact ⟨.resolve 1⟩
      · obtain ⟨_, _, heq⟩ := List.mem_map.mp hc
        cases heq

/-- thread and future rest when the resolution has returned, and both have been woken -/
theorem all_woken_gathering :
    gathering.proc? 5 0 = some .parking ∧ gathering.cells 5 = gathering.cells 4 ∧
      gathering.proc? 15 0 = some (.visiting (.parked 0)) ∧
      gathering.proc? 15 1 = some (.visiting (.sleeping 0)) ∧ Resolved gathering 15 ∧
      Woken gathering 15 :=
  ⟨rfl, rfl, rfl, rfl, ⟨2, rfl⟩, all_woken gathering ⟨2, rfl⟩⟩

end Meeting

end IndexCoordinator
