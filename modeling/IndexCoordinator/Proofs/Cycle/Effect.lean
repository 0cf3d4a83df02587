import IndexCoordinator.Proofs.Cycle.Moves

/-!
# What the work on a cycle does to its cells

One move of a build, of a maintenance task or of a call changes at most one cell, and the process
stays what it is until it has ended.

* `Cycle.Shuts`       one move of a shutdown of a cycle;
* `Work.advances?`, `Work.caches?`, `Work.installs?`   what a process is about to put into a cell;
* `Work.Effect`       the changes that a process can make where it stands;
* `Work.Onward`       where it goes from there, and what it starts;
* `Work.of_next`      every move makes one of these changes and goes to one of these places;
* `Cycle.Keeps`       what no process ever takes back: the generation, a requested shutdown, the
                      submission of the build, and its outcome.
-/

namespace IndexCoordinator

def Turn.again? {τ ρ : Type} : Turn τ ρ → Option τ
  | .go t => some t
  | .stop _ => none

namespace Cycle

def claimShutdown (c : Cycle) : Cycle :=
  { c with lifecycle := { c.lifecycle with shutdownPerformed := true } }

def cancel (c : Cycle) : Cycle := { c with lifecycle := c.lifecycle.cancel }

/-- one move of a shutdown, and where it goes on -/
inductive Shuts (c : Cycle) : Shutdown → Cycle → Option Shutdown → Prop where
  | claim : c.isShutdownRequested = false → Shuts c .claiming c.claimShutdown (some .cancelling)
  | lose : c.isShutdownRequested = true → Shuts c .claiming c none
  | cancel : Shuts c .cancelling c.cancel none

theorem shuts_next (c : Cycle) (s : Shutdown) :
    c.Shuts s { c with lifecycle := (s.next c.lifecycle).1 } (s.next c.lifecycle).2.again? := by
  cases s with
  | cancelling => exact .cancel
  | claiming =>
    unfold Shutdown.next
    by_cases h : c.lifecycle.shutdownPerformed = true
    · rw [if_pos h]
      exact .lose h
    · rw [if_neg h]
      exact .claim (Bool.not_eq_true _ ▸ h)

/-- what no process takes back -/
structure Keeps (c c' : Cycle) : Prop where
  settings : c'.settings = c.settings
  generation : c'.generation = c.generation
  shutdown : c.isShutdownRequested = true → c'.isShutdownRequested = true
  submitted : c.buildSubmitted = true → c'.buildSubmitted = true
  outcome : ∀ o, c.outcome.slot = some o → c'.outcome.slot = some o

theorem Keeps.refl (c : Cycle) : c.Keeps c := ⟨rfl, rfl, id, id, fun _ => id⟩

theorem Keeps.trans {a b c : Cycle} (h : a.Keeps b) (h' : b.Keeps c) : a.Keeps c where
  settings := h'.settings.trans h.settings
  generation := h'.generation.trans h.generation
  shutdown hs := h'.shutdown (h.shutdown hs)
  submitted hs := h'.submitted (h.submitted hs)
  outcome o ho := h'.outcome o (h.outcome o ho)

theorem Shuts.keeps {c c' : Cycle} {s : Shutdown} {again : Option Shutdown}
    (h : c.Shuts s c' again) : c.Keeps c' := by
  cases h with
  | claim => exact ⟨rfl, rfl, fun _ => rfl, id, fun _ => id⟩
  | lose => exact .refl c
  | cancel => exact ⟨rfl, rfl, id, id, fun _ => id⟩

end Cycle

inductive CycleCall.Fresh : CycleCall → Prop where
  | submit : Fresh (.submitting .claiming)
  | ensure : Fresh (.ensuring .looking)
  | resetHints : Fresh (.resettingHints .reading)
  | markInitialized : Fresh (.markingInitialized .reading)
  | loadExtensions : Fresh .loadingExtensions
  | setState (cfg : IndexConfiguration) : Fresh (.settingState cfg)
  | awaitConfiguration : Fresh (.awaitingConfiguration .reading)
  | pollConfiguration : Fresh (.pollingConfiguration .reading)
  | awaitInitialized : Fresh (.awaitingInitialized .reading)
  | awaitAll : Fresh (.awaitingAll (.configuration .reading))
  | shutDown : Fresh (.shuttingDown .claiming)
  | update (index : IndexId) (documents : List UnsavedDocument) : Fresh (.locating index documents)
  | process (index : IndexId) (documents : List UnsavedDocument) (success : Reply) :
      Fresh (.updating (.ofDocuments index documents) success)
  | processOne (index : IndexId) (document : UnsavedDocument) (success : Reply) :
      Fresh (.updating (.single index document) success)
  | require (file : IndexedFile) : Fresh (.requiring file)
  | view (fileType : FileType) : Fresh (.viewing fileType)
  | findTask (index : IndexId) : Fresh (.findingTask index)

namespace Work

def Begins (_ : Cycle) (w : Work) : Prop := ∃ k : CycleCall, k.Fresh ∧ w = .call k

def advances? : Work → Option Phase
  | .genesis (.loaded _) => some .extensionsLoaded
  | .genesis (.starting _) => some .initializing
  | .genesis (.marked _) => some .initialized
  | .call (.submitting .advancing) => some .extensionsLoading
  | .call .marked => some .initialized
  | .call .loadingExtensions => some .extensionsLoaded
  | _ => none

/-- the configuration that a process is about to put into the cell -/
def caches? : Work → Option IndexConfiguration
  | .genesis (.caching cfg) => some cfg
  | .call (.settingState cfg) => some cfg
  | .call k =>
    match k.wait? with
    | some (.storing cfg) => some cfg
    | _ => none
  | _ => none

def rebuild? : Work → Option Rebuild
  | .genesis (.marking _ b) => some b
  | .call (.resettingHints b) => some b
  | .call (.markingInitialized b) => some b
  | _ => none

/-- the evaluator that a process is about to put into the cell -/
def installs? (w : Work) : Option Evaluator :=
  match w.rebuild? with
  | some (.storing e) => some e
  | _ => none

/-- what a process can do to the cells of its cycle where it stands -/
inductive Effect (w : Work) (c : Cycle) : Cycle → Prop where
  | none : Effect w c c
  | publish {r : Registry} :
      w = .genesis (.publishing r) → Effect w c { c with registry := some r }
  | advance {target : Phase} : w.advances? = some target → Effect w c (c.advance target)
  | cache {cfg : IndexConfiguration} :
      w.caches? = some cfg → Effect w c { c with state := some cfg }
  | install {e : Evaluator} : w.installs? = some e → Effect w c { c with evaluator := some e }
  | resolve {o : BuildOutcome} :
      w = .genesis (.resolving o) → Effect w c { c with outcome := c.outcome.resolve o }
  | renew : Effect w c
      { c with confirmations := c.confirmations ++ [{}], slot := c.confirmations.length }
  | confirm (k : Nat) : Effect w c (c.resolveConfirmation k)
  | submit : w = .call (.submitting .claiming) → c.buildSubmitted = false →
      Effect w c { c with buildSubmitted := true }
  | shut {s : Shutdown} {c' : Cycle} {again : Option Shutdown} :
      w = .call (.shuttingDown s) → c.Shuts s c' again → Effect w c c'
  | fly {b : Batch} {success : Reply} (m : InFlight) :
      w = .call (.updating b success) → Effect w c (c.setInFlight b.index m)

/-- where a process can go from where it stands, and what it starts then -/
inductive Onward : Work → Work → List Work → Prop where
  | build (g g' : Genesis) : Onward (.genesis g) (.genesis g') []
  | built (k : Nat) :
      Onward (.genesis (.confirming (.spawning k))) (.genesis .ended) [.maintenance ⟨k, .waiting⟩]
  | maintain (m m' : Maintenance) : Onward (.maintenance m) (.maintenance m') []
  | go {k k' : CycleCall} : k.operation ≠ .submit → k'.operation = k.operation →
      Onward (.call k) (.call k') []
  | stop {k : CycleCall} (r : Reply) : k.operation ≠ .submit → Onward (.call k) (.ended r) []
  | won : Onward (.call (.submitting .claiming)) (.call (.submitting .advancing)) []
  | lost : Onward (.call (.submitting .claiming)) (.ended .done) []
  | advanced : Onward (.call (.submitting .advancing)) (.call (.submitting .spawning)) []
  | submitted : Onward (.call (.submitting .spawning)) (.ended .done) [.genesis .spawned]
  | ensured (k : Nat) :
      Onward (.call (.ensuring (.spawning k))) (.ended .done) [.maintenance ⟨k, .waiting⟩]

section
variable {w : Work} {c c' : Cycle} {fired : Bool} {answer : Answering}

theorem Effect.of_rebuild {b : Rebuild} {p : Rebuild.Part} (hw : w.rebuild? = some b)
    (h : Rebuild.Moves answer c b p) : Effect w c p.shared := by
  cases h with
  | store => exact .install (by simp [installs?, hw])
  | _ => exact .none

theorem Effect.of_ensure (c : Cycle) (e : Ensure) :
    Effect w c (e.next c).1 ∧ ∀ k, (e.next c).2 = .stop k → e = .spawning k := by
  cases e with
  | looking => exact ⟨.none, fun k h => by cases h⟩
  | spawning j => exact ⟨.none, fun k h => by cases h; rfl⟩
  | swapping seen wasDone =>
    by_cases hs : c.slot = seen
    · cases wasDone with
      | true =>
        simp only [Ensure.next, if_pos hs]
        exact ⟨.renew, fun k h => by cases h⟩
      | false =>
        simp only [Ensure.next, if_pos hs]
        exact ⟨.none, fun k h => by cases h⟩
    · simp only [Ensure.next, if_neg hs]
      exact ⟨.none, fun k h => by cases h⟩

theorem Effect.of_maintenance {m : Maintenance} {p : Progress Cycle Maintenance}
    (h : (m.next c).under answer = some p) :
    Effect (.maintenance m) c p.shared ∧ p.spawned = [] := by
  unfold Maintenance.next at h
  split at h
  · split at h <;> cases h <;> exact ⟨.none, rfl⟩
  · split at h <;> cases h <;> exact ⟨.none, rfl⟩
  · cases h
    exact ⟨.none, rfl⟩
  · cases h
    cases answer .deleteStaleIds <;> exact ⟨.none, rfl⟩
  · cases h
    exact ⟨.none, rfl⟩
  · cases h
    cases answer .bringUpToDate <;> exact ⟨.none, rfl⟩
  · cases h
    exact ⟨.confirm m.promise, rfl⟩
  · cases h

theorem caches?_of_wait {k : CycleCall} {cfg : IndexConfiguration}
    (h : k.wait? = some (.storing cfg)) : (call k).caches? = some cfg := by
  cases k with
  | settingState => cases h
  | _ => simp [caches?, h]

theorem of_submission {s : Submission} {t : Turn Submission Bool} (h : s.next c = (c', t)) :
    Effect (.call (.submitting s)) c c' ∧
      match t with
      | .go s' => Onward (.call (.submitting s)) (.call (.submitting s')) []
      | .stop started =>
        Onward (.call (.submitting s)) (.ended .done) (if started then [.genesis .spawned] else []) := by
  cases s with
  | claiming =>
    unfold Submission.next at h
    by_cases hs : c.buildSubmitted = true
    · rw [if_pos hs] at h
      cases h
      exact ⟨.none, .lost⟩
    · rw [if_neg hs] at h
      cases h
      exact ⟨.submit rfl (Bool.not_eq_true _ ▸ hs), .won⟩
  | advancing =>
    cases h
    exact ⟨.advance rfl, .advanced⟩
  | spawning =>
    cases h
    exact ⟨.none, .submitted⟩

theorem operation_ne_submit {k : CycleCall} {p : Poll} (h : k.wait? = some p) :
    k.operation ≠ .submit := by
  cases k with
  | submitting => cases h
  | _ => nofun

/-- **What one move does to the cells, and where it goes.** -/
theorem of_next {q : Progress Cycle Work} (h : (w.next fired c).under answer = some q) :
    w.Effect c q.shared ∧ w.Onward q.self q.spawned := by
  cases moves_of_next h with
  | list | listed | enterIndex | opened | assembled => exact ⟨.none, .build _ _⟩
  | publish => exact ⟨.publish rfl, .build _ _⟩
  | load | begin | marked => exact ⟨.advance rfl, .build _ _⟩
  | cache => exact ⟨.cache rfl, .build _ _⟩
  | mark hb => exact ⟨.of_rebuild rfl hb, .build _ _⟩
  | resolve => exact ⟨.resolve rfl, .build _ _⟩
  | @confirm e _ _ hn =>
    have he := (Effect.of_ensure (w := .genesis (.confirming e)) c e).1
    rw [hn] at he
    exact ⟨he, .build _ _⟩
  | @confirmed e _ k hn =>
    obtain ⟨he, hk⟩ := Effect.of_ensure (w := .genesis (.confirming e)) c e
    rw [hn] at he hk
    obtain rfl := hk k rfl
    exact ⟨he, .built k⟩
  | @maintain m p hp =>
    obtain ⟨he, hs⟩ := Effect.of_maintenance hp
    have ho : Onward (.maintenance m) (.maintenance p.self) (p.spawned.map .maintenance) :=
      hs ▸ .maintain m p.self
    exact ⟨he, ho⟩
  | submit hs | submitted hs => exact of_submission hs
  | @ensure e _ _ hn =>
    have he := (Effect.of_ensure (w := .call (.ensuring e)) c e).1
    rw [hn] at he
    exact ⟨he, .go nofun rfl⟩
  | @ensured e _ k hn =>
    obtain ⟨he, hk⟩ := Effect.of_ensure (w := .call (.ensuring e)) c e
    rw [hn] at he hk
    obtain rfl := hk k rfl
    exact ⟨he, .ensured k⟩
  | @reset b p hb =>
    refine ⟨.of_rebuild rfl hb, ?_⟩
    cases hb <;> first | exact .go nofun rfl | exact .stop _ nofun
  | @remark b p hb =>
    refine ⟨.of_rebuild rfl hb, ?_⟩
    cases hb <;> first | exact .go nofun rfl | exact .stop _ nofun
  | remarked | reload => exact ⟨.advance rfl, .stop _ nofun⟩
  | setState => exact ⟨.cache rfl, .stop _ nofun⟩
  | @shut s _ _ hn =>
    have hs := c.shuts_next s
    rw [hn] at hs
    exact ⟨.shut rfl hs, .go nofun rfl⟩
  | @shutDown s _ _ hn =>
    have hs := c.shuts_next s
    rw [hn] at hs
    exact ⟨.shut rfl hs, .stop _ nofun⟩
  | wait hk hp hk' ho =>
    refine ⟨?_, .go (operation_ne_submit hk) ho⟩
    cases hp <;> exact .none
  | @waited k p _ r hk hp =>
    refine ⟨?_, ?_⟩
    · cases hp with
      | store => exact .cache (caches?_of_wait hk)
      | _ => exact .none
    · unfold CycleCall.afterWait
      split
      · exact .stop _ nofun
      · split
        · exact .go nofun rfl
        · exact .stop _ nofun
      · exact .stop _ (operation_ne_submit hk)
  | loadSlot | located => exact ⟨.none, .go nofun rfl⟩
  | confirmedAll | untasked | updated | require | view | findTask => exact ⟨.none, .stop _ nofun⟩
  | update => exact ⟨.fly _ rfl, .go nofun rfl⟩
  | reject hk => exact ⟨.none, .stop _ fun hs => by rw [hs] at hk; simp at hk⟩

theorem Onward.spawned {w' : Work} {l : List Work} (h : Onward w w' l) :
    ∀ x ∈ l, x = .genesis .spawned ∨ ∃ k, x = .maintenance ⟨k, .waiting⟩ := by
  intro x hx
  cases h with
  | submitted => exact .inl (List.mem_singleton.mp hx)
  | built | ensured => exact .inr ⟨_, List.mem_singleton.mp hx⟩
  | _ => cases hx

theorem Onward.genesis {w' : Work} {l : List Work} (h : Onward w w' l) {g' : Genesis}
    (hw : w' = .genesis g') : ∃ g, w = .genesis g := by
  cases h with
  | build | built => exact ⟨_, rfl⟩
  | _ => cases hw

theorem Onward.operation {w' : Work} {l : List Work} (h : Onward w w' l) {k' : CycleCall}
    (hw : w' = .call k') : ∃ k, w = .call k ∧ k'.operation = k.operation := by
  cases h with
  | go _ hk =>
    cases hw
    exact ⟨_, rfl, hk⟩
  | won | advanced =>
    cases hw
    exact ⟨_, rfl, rfl⟩
  | _ => cases hw

theorem Effect.keeps (h : w.Effect c c') : c.Keeps c' := by
  cases h with
  | submit => exact ⟨rfl, rfl, id, fun _ => rfl, fun _ => id⟩
  | resolve =>
    refine ⟨rfl, rfl, id, id, fun o ho => ?_⟩
    show (c.outcome.resolve _).slot = some o
    rw [Promise.resolve_of_slot ho]
    exact ho
  | shut _ hs => exact hs.keeps
  | _ => exact ⟨rfl, rfl, id, id, fun _ => id⟩

theorem Effect.isShutdownRequested (h : w.Effect c c')
    (hw : ∀ s, w ≠ .call (.shuttingDown s)) : c'.isShutdownRequested = c.isShutdownRequested := by
  cases h with
  | shut h _ => exact absurd h (hw _)
  | _ => rfl

theorem Effect.outcome (h : w.Effect c c') :
    c'.outcome = c.outcome ∨
      ∃ o, w = .genesis (.resolving o) ∧ c'.outcome = c.outcome.resolve o := by
  cases h with
  | resolve hw => exact .inr ⟨_, hw, rfl⟩
  | shut _ hs => exact .inl (by cases hs <;> rfl)
  | _ => exact .inl rfl

theorem Effect.buildSubmitted (h : w.Effect c c') (hw : w ≠ .call (.submitting .claiming)) :
    c'.buildSubmitted = c.buildSubmitted := by
  cases h with
  | submit h _ => exact absurd h hw
  | shut _ hs => cases hs <;> rfl
  | _ => rfl

end

end Work

end IndexCoordinator
