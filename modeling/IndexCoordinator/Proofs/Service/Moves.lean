import IndexCoordinator.Proofs.Cycle.Effect
import IndexCoordinator.Service.Job

/-!
# Moves of jobs

`Job.next` as a relation: one constructor for every way to move.

* `Coordinator.Shuts`    one move of a shutdown of the cycle at a position;
* `Job.afterLock`, `Job.afterUnlock`   where jobs go when they take the lock or give it back;
* `Job.Moves`            one move of a job, with `Job.moves_of_next`;
* `Job.Begins`           what callers of a service and of its cycles may start;
* `Coordinator.Keeps`    what no job takes back, with `Job.Moves.keeps`.
-/

namespace IndexCoordinator

namespace Coordinator

/-- one move of a shutdown of the cycle at a position, and where it goes on -/
inductive Shuts (w : Coordinator) (i : Nat) :
    Shutdown → Coordinator → Option Shutdown → Prop where
  | missing (s : Shutdown) : w.cycle? i = none → Shuts w i s w none
  | found {s : Shutdown} {c c' : Cycle} {again : Option Shutdown} :
      w.cycle? i = some c → c.Shuts s c' again → Shuts w i s (w.setCycle i c') again

theorem cycle?_setCycle_self {w : Coordinator} {i : Nat} {c : Cycle} (h : w.cycle? i = some c)
    (c' : Cycle) : (w.setCycle i c').cycle? i = some c' := by
  obtain ⟨hi, _⟩ := List.getElem?_eq_some_iff.mp h
  simp [setCycle, cycle?, hi]

/-- a new cycle is in the last position, with the next generation -/
def issue (w : Coordinator) : Coordinator :=
  { w with
    cycles := w.cycles ++ [.ofGeneration w.settings (w.service.clock.issued + 1)]
    service := { w.service with clock := ⟨w.service.clock.issued + 1⟩ } }

end Coordinator

namespace Job

def afterLock : Job → Option Job
  | .changing .acquiring => some (.changing .checking)
  | .promoting next .acquiring => some (.promoting next .comparing)
  | .closing .acquiring => some (.closing .claiming)
  | _ => none

def afterUnlock : Job → Option Job
  | .changing .refusing => some (.ended (.failed .shutDown))
  | .changing (.releasing next) => some (.changing (.spawning next))
  | .promoting _ .releasing => some (.ended .done)
  | .closing .refusing => some (.ended (.flag false))
  | .closing .releasing => some (.ended (.flag true))
  | .closing (.unwinding p) => some (.ended (.panicked p))
  | _ => none

/-- one move of a job: the new cells, the new position, what it starts, and the events -/
inductive Moves (fired : Bool) (answer : Answering) (w : Coordinator) :
    Job → Progress Coordinator Job → Prop where
  | work {i : Nat} {k : Work} {c : Cycle} {q : Progress Cycle Work} :
      w.cycle? i = some c → (k.next fired c).under answer = some q →
      Moves fired answer w (.work i k) (q.map (w.setCycle i) (.work i))
  | acquire {j j' : Job} : w.service.locked = false → j.afterLock = some j' →
      Moves fired answer w j { shared := lock w, self := j' }
  | release {j j' : Job} : j.afterUnlock = some j' →
      Moves fired answer w j { shared := unlock w, self := j' }
  -- a change
  | refuse : w.service.shutDown = true →
      Moves fired answer w (.changing .checking) { shared := w, self := .changing .refusing }
  | permit : w.service.shutDown = false →
      Moves fired answer w (.changing .checking) { shared := w, self := .changing .creating }
  | create : Moves fired answer w (.changing .creating)
      { shared := w.issue, self := .changing (.submitting w.cycles.length .claiming) }
  | submit {next : Nat} {s s' : Submission} {c c' : Cycle} :
      w.cycle? next = some c → s.next c = (c', .go s') →
      Moves fired answer w (.changing (.submitting next s))
        { shared := w.setCycle next c', self := .changing (.submitting next s') }
  | submitted {next : Nat} {s : Submission} {c c' : Cycle} {started : Bool} :
      w.cycle? next = some c → s.next c = (c', .stop started) →
      Moves fired answer w (.changing (.submitting next s))
        { shared := w.setCycle next c'
          self := .changing (.replacing next)
          spawned := if started then [.work next (.genesis .spawned)] else [] }
  | replace {next old : Nat} : w.service.pending = some old →
      Moves fired answer w (.changing (.replacing next))
        { shared := setService w { w.service with pending := some next }
          self := .changing (.superseding next old .claiming) }
  | install {next : Nat} : w.service.pending = none →
      Moves fired answer w (.changing (.replacing next))
        { shared := setService w { w.service with pending := some next }
          self := .changing (.releasing next) }
  | supersede {next old : Nat} {s s' : Shutdown} {w' : Coordinator} :
      w.Shuts old s w' (some s') →
      Moves fired answer w (.changing (.superseding next old s))
        { shared := w', self := .changing (.superseding next old s') }
  | superseded {next old : Nat} {s : Shutdown} {w' : Coordinator} : w.Shuts old s w' none →
      Moves fired answer w (.changing (.superseding next old s))
        { shared := w', self := .changing (.releasing next) }
  | spawn {next : Nat} : Moves fired answer w (.changing (.spawning next))
      { shared := w, self := .ended (.cycle next), spawned := [.promoting next .waiting] }
  -- a promotion
  | built {next : Nat} {c : Cycle} {o : BuildOutcome} :
      w.cycle? next = some c → c.outcome.slot = some o →
      Moves fired answer w (.promoting next .waiting)
        { shared := w, self := .promoting next .acquiring }
  | abandoned {next : Nat} {c : Cycle} :
      w.cycle? next = some c → c.outcome.slot = none → c.lifecycle.isCancelled = true →
      Moves fired answer w (.promoting next .waiting) { shared := w, self := .ended .done }
  | take {next : Nat} : w.service.pending = some next →
      Moves fired answer w (.promoting next .comparing)
        { shared := setService w { w.service with pending := none }
          self := .promoting next .swapping }
  | pass {next : Nat} : w.service.pending ≠ some next →
      Moves fired answer w (.promoting next .comparing)
        { shared := w, self := .promoting next .releasing }
  | swap {next : Nat} : Moves fired answer w (.promoting next .swapping)
      { shared := setService w { w.service with current := next }
        self := .promoting next (.retiring w.service.current .claiming) }
  | retire {next previous : Nat} {s s' : Shutdown} {w' : Coordinator} :
      w.Shuts previous s w' (some s') →
      Moves fired answer w (.promoting next (.retiring previous s))
        { shared := w', self := .promoting next (.retiring previous s') }
  | retired {next previous : Nat} {s : Shutdown} {w' : Coordinator} :
      w.Shuts previous s w' none →
      Moves fired answer w (.promoting next (.retiring previous s))
        { shared := w', self := .promoting next .releasing }
  -- a shutdown of the service
  | yield : w.service.shutDown = true →
      Moves fired answer w (.closing .claiming) { shared := w, self := .closing .refusing }
  | close : w.service.shutDown = false →
      Moves fired answer w (.closing .claiming)
        { shared := setService w { w.service with shutDown := true }, self := .closing .taking }
  | drop {old : Nat} : w.service.pending = some old →
      Moves fired answer w (.closing .taking)
        { shared := setService w { w.service with pending := none }
          self := .closing (.abandoning old .claiming) }
  | clear : w.service.pending = none →
      Moves fired answer w (.closing .taking)
        { shared := setService w { w.service with pending := none }, self := .closing .loading }
  | abandon {old : Nat} {s s' : Shutdown} {w' : Coordinator} : w.Shuts old s w' (some s') →
      Moves fired answer w (.closing (.abandoning old s))
        { shared := w', self := .closing (.abandoning old s') }
  | dropped {old : Nat} {s : Shutdown} {w' : Coordinator} : w.Shuts old s w' none →
      Moves fired answer w (.closing (.abandoning old s))
        { shared := w', self := .closing .loading }
  | load : Moves fired answer w (.closing .loading)
      { shared := w, self := .closing (.retiring w.service.current .claiming) }
  | stop {current : Nat} {s s' : Shutdown} {w' : Coordinator} : w.Shuts current s w' (some s') →
      Moves fired answer w (.closing (.retiring current s))
        { shared := w', self := .closing (.retiring current s') }
  | stopped {current : Nat} {s : Shutdown} {w' : Coordinator} : w.Shuts current s w' none →
      Moves fired answer w (.closing (.retiring current s))
        { shared := w', self := .closing .entering }
  | enter : Moves fired answer w (.closing .entering)
      { shared := w, self := .closing .disposing, events := [.entered .dispose] }
  | disposed : answer .dispose = .returned () →
      Moves fired answer w (.closing .disposing)
        { shared := w, self := .closing .releasing, events := [.left .dispose .completed] }
  | panic {p : PanicPayload} : answer .dispose = .panicked p →
      Moves fired answer w (.closing .disposing)
        { shared := w, self := .closing (.unwinding p), events := [.left .dispose .panicked] }
  -- a wait for the pending cycle
  | settled : w.service.locked = false → w.service.pending = none →
      Moves fired answer w (.awaitingPending .looking)
        { shared := w, self := .awaitingPending .checking }
  | cancelled : w.service.locked = false → w.service.pending ≠ none → fired = true →
      Moves fired answer w (.awaitingPending .looking)
        { shared := w, self := .ended (.failed .cancelled) }
  | late : w.service.shutDown = true →
      Moves fired answer w (.awaitingPending .checking)
        { shared := w, self := .ended (.failed .shutDown) }
  | ready : w.service.shutDown = false →
      Moves fired answer w (.awaitingPending .checking)
        { shared := w, self := .awaitingPending .loading }
  | answer : Moves fired answer w (.awaitingPending .loading)
      { shared := w, self := .ended (.cycle w.service.current) }
  -- a lookup
  | reject {call : CycleCall} : w.service.shutDown = true →
      Moves fired answer w (.lookingUp call) { shared := w, self := .ended (.failed .shutDown) }
  | passOn {call : CycleCall} : w.service.shutDown = false →
      Moves fired answer w (.lookingUp call) { shared := w, self := .loading call }
  | lookUp {call : CycleCall} : Moves fired answer w (.loading call)
      { shared := w, self := .work w.service.current (.call call) }

section
variable {fired : Bool} {answer : Answering} {w : Coordinator}

theorem moves_acquire {j j' : Job} {q : Progress Coordinator Job} (hj : j.afterLock = some j')
    (h : (acquire w j').under answer = some q) : Moves fired answer w j q := by
  unfold acquire at h
  by_cases hl : w.service.locked = true
  · rw [if_pos hl] at h
    cases h
  · rw [if_neg hl] at h
    cases h
    exact .acquire (Bool.not_eq_true _ ▸ hl) hj

theorem shuts_of_shut {i : Nat} {s : Shutdown} {again : Shutdown → Job} {after : Job}
    {q : Progress Coordinator Job} (h : (shut w i s again after).under answer = some q) :
    (∃ w' s', w.Shuts i s w' (some s') ∧ q = { shared := w', self := again s' }) ∨
      ∃ w', w.Shuts i s w' none ∧ q = { shared := w', self := after } := by
  unfold shut at h
  cases hc : w.cycle? i with
  | none =>
    rw [hc] at h
    cases h
    exact .inr ⟨w, .missing s hc, rfl⟩
  | some c =>
    have hs := c.shuts_next s
    simp only [hc] at h
    rcases hn : s.next c.lifecycle with ⟨l, s' | won⟩ <;> rw [hn] at h hs <;> cases h
    · exact .inl ⟨_, s', .found hc hs, rfl⟩
    · exact .inr ⟨_, .found hc hs, rfl⟩

theorem moves_of_nextChange {s : Change} {q : Progress Coordinator Job}
    (h : (nextChange w s).under answer = some q) : Moves fired answer w (.changing s) q := by
  cases s with
  | acquiring => exact moves_acquire rfl h
  | checking =>
    cases hs : w.service.shutDown <;> simp only [nextChange, hs] at h <;> cases h
    · exact .permit hs
    · exact .refuse hs
  | refusing | releasing next =>
    cases h
    exact .release rfl
  | creating =>
    cases h
    exact .create
  | submitting next s =>
    simp only [nextChange] at h
    cases hc : w.cycle? next with
    | none =>
      rw [hc] at h
      cases h
    | some c =>
      simp only [hc] at h
      rcases hn : s.next c with ⟨c', s' | started⟩ <;> rw [hn] at h <;> cases h
      · exact .submit hc hn
      · exact .submitted hc hn
  | replacing next =>
    cases hp : w.service.pending <;> simp only [nextChange, hp] at h <;> cases h
    · exact .install hp
    · exact .replace hp
  | superseding next old s =>
    obtain ⟨w', s', hs, rfl⟩ | ⟨w', hs, rfl⟩ := shuts_of_shut h
    · exact .supersede hs
    · exact .superseded hs
  | spawning next =>
    cases h
    exact .spawn

theorem moves_of_nextPromotion {next : Nat} {s : Promotion} {q : Progress Coordinator Job}
    (h : (nextPromotion w next s).under answer = some q) :
    Moves fired answer w (.promoting next s) q := by
  cases s with
  | waiting =>
    simp only [nextPromotion] at h
    cases hc : w.cycle? next with
    | none =>
      rw [hc] at h
      cases h
    | some c =>
      simp only [hc, Promise.look] at h
      cases ho : c.outcome.slot with
      | some o =>
        simp only [ho] at h
        cases h
        exact .built hc ho
      | none =>
        cases hl : c.lifecycle.isCancelled <;> simp only [ho, hl] at h <;> cases h
        exact .abandoned hc ho hl
  | acquiring => exact moves_acquire rfl h
  | comparing =>
    by_cases hp : w.service.pending = some next
    · simp only [nextPromotion, if_pos hp] at h
      cases h
      exact .take hp
    · simp only [nextPromotion, if_neg hp] at h
      cases h
      exact .pass hp
  | swapping =>
    cases h
    exact .swap
  | retiring previous s =>
    obtain ⟨w', s', hs, rfl⟩ | ⟨w', hs, rfl⟩ := shuts_of_shut h
    · exact .retire hs
    · exact .retired hs
  | releasing =>
    cases h
    exact .release rfl

theorem moves_of_nextClosing {s : Closing} {q : Progress Coordinator Job}
    (h : (nextClosing w s).under answer = some q) : Moves fired answer w (.closing s) q := by
  cases s with
  | acquiring => exact moves_acquire rfl h
  | claiming =>
    cases hs : w.service.shutDown <;> simp only [nextClosing, hs] at h <;> cases h
    · exact .close hs
    · exact .yield hs
  | refusing | releasing | unwinding p =>
    cases h
    exact .release rfl
  | taking =>
    cases hp : w.service.pending <;> simp only [nextClosing, hp] at h <;> cases h
    · exact .clear hp
    · exact .drop hp
  | abandoning old s =>
    obtain ⟨w', s', hs, rfl⟩ | ⟨w', hs, rfl⟩ := shuts_of_shut h
    · exact .abandon hs
    · exact .dropped hs
  | loading =>
    cases h
    exact .load
  | retiring current s =>
    obtain ⟨w', s', hs, rfl⟩ | ⟨w', hs, rfl⟩ := shuts_of_shut h
    · exact .stop hs
    · exact .stopped hs
  | entering =>
    cases h
    exact .enter
  | disposing =>
    simp only [nextClosing, Move.under_awaiting] at h
    cases ha : answer .dispose with
    | returned a =>
      rw [ha] at h
      cases h
      exact .disposed ha
    | panicked p =>
      rw [ha] at h
      cases h
      exact .panic ha

theorem moves_of_nextPendingWait {s : PendingWait} {q : Progress Coordinator Job}
    (h : (nextPendingWait fired w s).under answer = some q) :
    Moves fired answer w (.awaitingPending s) q := by
  cases s with
  | looking =>
    cases hl : w.service.locked <;> simp only [nextPendingWait, hl] at h
    · cases hp : w.service.pending with
      | none =>
        simp only [hp] at h
        cases h
        exact .settled hl hp
      | some p =>
        cases fired <;> simp only [hp] at h <;> cases h
        exact .cancelled hl (by simp [hp]) rfl
    · cases h
  | checking =>
    cases hs : w.service.shutDown <;> simp only [nextPendingWait, hs] at h <;> cases h
    · exact .ready hs
    · exact .late hs
  | loading =>
    cases h
    exact .answer

/-- **Every move of a job is one of these.** -/
theorem moves_of_next {j : Job} {q : Progress Coordinator Job}
    (h : (next fired w j).under answer = some q) : Moves fired answer w j q := by
  cases j with
  | work i k =>
    simp only [next] at h
    cases hc : w.cycle? i with
    | none =>
      rw [hc] at h
      cases h
    | some c =>
      simp only [hc, Move.under_map, Option.map_eq_some_iff] at h
      obtain ⟨p, hp, rfl⟩ := h
      exact .work hc hp
  | changing s => exact moves_of_nextChange h
  | promoting next s => exact moves_of_nextPromotion h
  | closing s => exact moves_of_nextClosing h
  | awaitingPending s => exact moves_of_nextPendingWait h
  | lookingUp call =>
    cases hs : w.service.shutDown <;> simp only [next, hs] at h <;> cases h
    · exact .passOn hs
    · exact .reject hs
  | loading call =>
    cases h
    exact .lookUp
  | ended r => cases h

end

end Job

/-! ## what no job takes back -/

namespace Coordinator

/-- every cycle stays and keeps what no process takes back, and so does the service -/
structure Keeps (w w' : Coordinator) : Prop where
  settings : w'.settings = w.settings
  cycle : ∀ k c, w.cycle? k = some c → ∃ c', w'.cycle? k = some c' ∧ c.Keeps c'
  shutDown : w.service.shutDown = true → w'.service.shutDown = true

/-- only cycles change, and they keep what no process takes back -/
structure Aside (w w' : Coordinator) : Prop extends Keeps w w' where
  service : w'.service = w.service
  length : w'.cycles.length = w.cycles.length

theorem Keeps.trans {w w' w'' : Coordinator} (h : w.Keeps w') (h' : w'.Keeps w'') :
    w.Keeps w'' where
  settings := h'.settings.trans h.settings
  cycle k c hc := by
    obtain ⟨c', hc', hk⟩ := h.cycle k c hc
    obtain ⟨c'', hc'', hk'⟩ := h'.cycle k c' hc'
    exact ⟨c'', hc'', hk.trans hk'⟩
  shutDown hs := h'.shutDown (h.shutDown hs)

theorem keeps_of_cycles {w w' : Coordinator} (hs : w'.settings = w.settings)
    (hc : w'.cycles = w.cycles) (hd : w.service.shutDown = true → w'.service.shutDown = true) :
    w.Keeps w' where
  settings := hs
  cycle k c h := ⟨c, by rw [cycle?, hc]; exact h, .refl c⟩
  shutDown := hd

theorem Aside.refl (w : Coordinator) : w.Aside w := ⟨keeps_of_cycles rfl rfl id, rfl, rfl⟩

theorem aside_setCycle {w : Coordinator} {i : Nat} {c c' : Cycle} (h : w.cycle? i = some c)
    (hk : c.Keeps c') : w.Aside (w.setCycle i c') where
  settings := rfl
  cycle k x hx := by
    by_cases e : i = k
    · subst e
      obtain rfl : c = x := Option.some.inj (h.symm.trans hx)
      exact ⟨c', cycle?_setCycle_self h c', hk⟩
    · exact ⟨x, (w.cycle?_setCycle_ne c' e).trans hx, .refl x⟩
  shutDown := id
  service := rfl
  length := w.length_setCycle i c'

theorem Shuts.aside {w w' : Coordinator} {i : Nat} {s : Shutdown} {again : Option Shutdown}
    (h : w.Shuts i s w' again) : w.Aside w' := by
  cases h with
  | missing => exact .refl w
  | found hc hs => exact aside_setCycle hc hs.keeps

theorem keeps_issue (w : Coordinator) : w.Keeps w.issue where
  settings := rfl
  cycle k c hc := by
    obtain ⟨hk, _⟩ := List.getElem?_eq_some_iff.mp hc
    exact ⟨c, (List.getElem?_append_left hk).trans hc, .refl c⟩
  shutDown := id

end Coordinator

theorem Submission.keeps {c c' : Cycle} {s : Submission} {t : Turn Submission Bool}
    (h : s.next c = (c', t)) :
    c.Keeps c' ∧ c'.isShutdownRequested = c.isShutdownRequested := by
  cases s with
  | claiming =>
    unfold Submission.next at h
    cases hb : c.buildSubmitted <;> simp only [hb] at h <;> cases h
    · exact ⟨⟨rfl, rfl, id, fun _ => rfl, fun _ => id⟩, rfl⟩
    · exact ⟨.refl c, rfl⟩
  | advancing =>
    cases h
    exact ⟨⟨rfl, rfl, id, id, fun _ => id⟩, rfl⟩
  | spawning =>
    cases h
    exact ⟨.refl c, rfl⟩

namespace Job

section
variable {fired : Bool} {answer : Answering} {w : Coordinator} {j : Job}
  {q : Progress Coordinator Job}

/-- **No job takes anything back.** -/
theorem Moves.keeps (h : Moves fired answer w j q) : w.Keeps q.shared := by
  cases h with
  | work hc hq => exact (Coordinator.aside_setCycle hc (Work.of_next hq).1.keeps).toKeeps
  | create => exact w.keeps_issue
  | submit hc hs | submitted hc hs =>
    exact (Coordinator.aside_setCycle hc (Submission.keeps hs).1).toKeeps
  | supersede h | superseded h | retire h | retired h | abandon h | dropped h | stop h
  | stopped h => exact h.aside.toKeeps
  | close => exact Coordinator.keeps_of_cycles rfl rfl fun _ => rfl
  | _ => exact Coordinator.keeps_of_cycles rfl rfl id

end

/-- the calls that the service passes on to its current cycle -/
def IsLookup : CycleCall → Prop
  | .awaitingConfiguration .reading => True
  | .requiring _ => True
  | .findingTask _ => True
  | .locating _ _ => True
  | .resettingHints .reading => True
  | _ => False

/-- a caller of the service or of one of its cycles comes in -/
def Begins (w : Coordinator) (j : Job) : Prop :=
  j = .changing .acquiring ∨ j = .closing .acquiring ∨ j = .awaitingPending .looking ∨
    (∃ k, IsLookup k ∧ j = .lookingUp k) ∨
    ∃ i k, i < w.cycles.length ∧ k.Fresh ∧ j = .work i (.call k)

end Job

end IndexCoordinator
