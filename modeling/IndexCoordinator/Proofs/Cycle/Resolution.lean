import IndexCoordinator.Proofs.Cycle.Builder

/-!
# The outcome of a build

`Execution.Story` says for every position of a build what the collaborators have answered by then.
From it comes what the promise of the build holds once the build is over.

* `Execution.Assembled`, `Execution.Result`   what the answers make of a build;
* `Execution.story`            the story of a build at every moment;
* `Execution.build_resolves`   the promise is resolved with the result, unless the registry of file
                               types panicked: then nobody resolves it, and who waits for it waits
                               on.
-/

namespace IndexCoordinator

namespace Genesis

def isOpen : Genesis → Bool
  | .confirming _ => false
  | .ended => false
  | _ => true

end Genesis

/-- a build that has ended, normally or by a panic -/
def Work.isOver : Work → Bool
  | .genesis .ended => true
  | .genesis (.unwound _) => true
  | _ => false

namespace Execution

section
variable (E : Builds) (t i : Nat)

/-- process `i` is a build that has ended -/
def BuildOver : Prop := ∃ w, E.proc? t i = some w ∧ w.isOver = true

def Registered (r : Registry) : Prop :=
  ∃ descriptors, E.Answered t i .listDescriptors (.returned (.ok descriptors)) ∧
    Genesis.register E.first.settings descriptors = .ok r

/-- an assembly on its way: all that does not remain was opened -/
def Assembling (a : Assembly) : Prop :=
  E.Registered t i a.registry ∧
    ∃ opened, a.registry.descriptors = opened ++ a.remaining ∧
      a.versions = opened.map (fun d => (d.id, d.version)) ∧
      ∀ d ∈ opened, E.Answered t i (.openIndex d) (.returned (.ok ()))

/-- the configuration of a registry, all of whose indexes were opened -/
structure Assembled (cfg : IndexConfiguration) : Prop where
  registered : E.Registered t i cfg.registry
  opened : ∀ d ∈ cfg.registry.descriptors, E.Answered t i (.openIndex d) (.returned (.ok ()))
  versions : cfg.versions = cfg.registry.descriptors.map fun d => (d.id, d.version)
  fingerprint : cfg.fingerprint = Fingerprint.ofVersions cfg.versions

/-- a panic of the listing or of an opening -/
def BuildPanicked (p : PanicPayload) : Prop :=
  E.Answered t i .listDescriptors (.panicked p) ∨ ∃ d, E.Answered t i (.openIndex d) (.panicked p)

/-- what the answers make of a build -/
inductive Result : BuildOutcome → Prop where
  | assembled {cfg : IndexConfiguration} : E.Assembled t i cfg → Result (.ok cfg)
  | unlisted {e : ExtensionError} :
      E.Answered t i .listDescriptors (.returned (.error e)) → Result (.error (.extensions e))
  | refused {descriptors : List IndexDescriptor} {e : BuildError} :
      E.Answered t i .listDescriptors (.returned (.ok descriptors)) →
      Genesis.register E.first.settings descriptors = .error e → Result (.error e)
  | unopened {d : IndexDescriptor} {e : StorageError} :
      E.Answered t i (.openIndex d) (.returned (.error e)) → Result (.error (.storage d.id e))
  | panicked {p : PanicPayload} :
      E.BuildPanicked t i p → Result (.error (.panicked p.message))

/-- what has happened when a build stands at a position -/
def Story : Genesis → Prop
  | .spawned => True
  | .listing => True
  | .publishing r => E.Registered t i r
  | .loaded r => E.Registered t i r
  | .starting r => E.Registered t i r
  | .assembling a => E.Assembling t i a
  | .opening a d rest => a.remaining = d :: rest ∧ E.Assembling t i a
  | .caching cfg => E.Assembled t i cfg
  | .marking cfg _ => E.Assembled t i cfg
  | .marked cfg => E.Assembled t i cfg
  | .resolving o => E.Result t i o
  | .confirming _ => ∃ o, (E.cells t).outcome.slot = some o ∧ E.Result t i o
  | .ended => ∃ o, (E.cells t).outcome.slot = some o ∧ E.Result t i o
  | .unwound p => E.Answered t i .registeredFileTypes (.panicked p)

end

variable {E : Builds} {t u i : Nat}

theorem cells_keep (h : t ≤ u) : (E.cells t).Keeps (E.cells u) := by
  induction u, h using Nat.le_induction with
  | base => exact .refl _
  | succ u _ ih =>
    obtain he | ⟨j, w, fired, answer, q, hm⟩ := cells_succ (E := E) u
    · rw [he]
      exact ih
    · rw [hm.cells_succ]
      exact ih.trans (Work.of_next hm.leads).1.keeps

theorem settings_eq (t : Nat) : (E.cells t).settings = E.first.settings :=
  (cells_keep (Nat.zero_le t)).settings

/-! ## what stays -/

theorem Registered.mono {r : Registry} (h : E.Registered t i r) (htu : t ≤ u) :
    E.Registered u i r := by
  obtain ⟨descriptors, hlist, hr⟩ := h
  exact ⟨descriptors, hlist.mono htu, hr⟩

theorem Assembling.mono {a : Assembly} (h : E.Assembling t i a) (htu : t ≤ u) :
    E.Assembling u i a := by
  obtain ⟨hr, opened, hd, hv, hopen⟩ := h
  exact ⟨hr.mono htu, opened, hd, hv, fun d hd => (hopen d hd).mono htu⟩

theorem Assembled.mono {cfg : IndexConfiguration} (h : E.Assembled t i cfg) (htu : t ≤ u) :
    E.Assembled u i cfg :=
  ⟨h.registered.mono htu, fun d hd => (h.opened d hd).mono htu, h.versions, h.fingerprint⟩

theorem BuildPanicked.mono {p : PanicPayload} (h : E.BuildPanicked t i p) (htu : t ≤ u) :
    E.BuildPanicked u i p := by
  obtain h | ⟨d, h⟩ := h
  · exact .inl (h.mono htu)
  · exact .inr ⟨d, h.mono htu⟩

theorem Result.mono {o : BuildOutcome} (h : E.Result t i o) (htu : t ≤ u) : E.Result u i o := by
  cases h with
  | assembled h => exact .assembled (h.mono htu)
  | unlisted h => exact .unlisted (h.mono htu)
  | refused h hr => exact .refused (h.mono htu) hr
  | unopened h => exact .unopened (h.mono htu)
  | panicked h => exact .panicked (h.mono htu)

theorem Story.mono {g : Genesis} (h : E.Story t i g) (htu : t ≤ u) : E.Story u i g := by
  cases g with
  | spawned | listing => trivial
  | publishing r | loaded r | starting r => exact Registered.mono h htu
  | assembling a => exact Assembling.mono h htu
  | opening a d rest => exact ⟨h.1, Assembling.mono h.2 htu⟩
  | caching cfg | marking cfg b | marked cfg => exact Assembled.mono h htu
  | resolving o => exact Result.mono h htu
  | confirming e | ended =>
    obtain ⟨o, ho, hr⟩ := h
    exact ⟨o, (cells_keep htu).outcome o ho, hr.mono htu⟩
  | unwound p => exact Answered.mono h htu

/-! ## one move of a build -/

theorem story_afterListing {a : Outcome (Except ExtensionError (List IndexDescriptor))}
    (h : E.Answered t i .listDescriptors a) :
    E.Story t i (Genesis.afterListing E.first.settings a) := by
  obtain (e | descriptors) | p := a
  · exact .unlisted h
  · unfold Genesis.afterListing
    cases hr : Genesis.register E.first.settings descriptors with
    | ok r =>
      simp only [hr]
      exact ⟨descriptors, h, hr⟩
    | error e =>
      simp only [hr]
      exact .refused h hr
  · exact .panicked (.inl h)

theorem story_afterOpening {a : Assembly} {d : IndexDescriptor} {rest : List IndexDescriptor}
    {ans : Outcome (Except StorageError Unit)} (hr : a.remaining = d :: rest)
    (ha : E.Assembling t i a) (h : E.Answered t i (.openIndex d) ans) :
    E.Story t i (Genesis.afterOpening a d rest ans) := by
  obtain (e | ⟨⟩) | p := ans
  · exact .unopened h
  · obtain ⟨hreg, opened, hd, hv, hopen⟩ := ha
    refine ⟨hreg, opened ++ [d], ?_, ?_, fun x hx => ?_⟩
    · show a.registry.descriptors = opened ++ [d] ++ rest
      rw [hd, hr, List.append_assoc]
      rfl
    · show a.versions ++ [(d.id, d.version)] = _
      rw [hv, List.map_append]
      rfl
    · obtain hx | hx := List.mem_append.mp hx
      · exact hopen x hx
      · obtain rfl := List.mem_singleton.mp hx
        exact h
  · exact .panicked (.inr ⟨d, h⟩)

theorem Assembling.finish {a : Assembly} (h : E.Assembling t i a) (hr : a.remaining = []) :
    E.Assembled t i a.finish := by
  obtain ⟨hreg, opened, hd, hv, hopen⟩ := h
  rw [hr, List.append_nil] at hd
  subst hd
  exact ⟨hreg, hopen, hv, rfl⟩

section
variable {fired : Bool} {answer : Answering} {q : Progress Cycle Work} {g g' : Genesis}

theorem Moves.not_isOpen (hm : E.Moves t i (.genesis g) fired answer q)
    (hg : g.isOpen = false ∨ ∃ o, g = .resolving o) :
    ∃ g', q.self = .genesis g' ∧ g'.isOpen = false := by
  have h := hm.leads
  obtain hg | ⟨o, rfl⟩ := hg
  · cases g with
    | confirming e =>
      simp only [Work.next, Genesis.next, Move.under_map, Option.map_eq_some_iff] at h
      obtain ⟨p, hp, rfl⟩ := h
      rcases hn : e.next (E.cells t) with ⟨c', e' | k⟩ <;> rw [hn] at hp <;> cases hp <;>
        exact ⟨_, rfl, rfl⟩
    | ended => cases h
    | _ => cases hg
  · cases o <;> cases h <;> exact ⟨_, rfl, rfl⟩

theorem Moves.slot_of_resolving {o : BuildOutcome}
    (hm : E.Moves t i (.genesis (.resolving o)) fired answer q)
    (hnone : (E.cells t).outcome.slot = none) : (E.cells (t + 1)).outcome.slot = some o := by
  have h := hm.leads
  rw [hm.cells_succ]
  cases h
  show ((E.cells t).outcome.resolve o).slot = some o
  rw [Promise.slot_resolve, hnone]
  rfl

theorem story_of_not_isOpen {o : BuildOutcome} (ho : (E.cells t).outcome.slot = some o)
    (hr : E.Result t i o) (hg : g.isOpen = false) : E.Story t i g := by
  cases g with
  | confirming e | ended => exact ⟨o, ho, hr⟩
  | _ => cases hg

theorem story_of_marking {cfg : IndexConfiguration} {b : Rebuild}
    (hm : E.Moves t i (.genesis (.marking cfg b)) fired answer q) (hs : E.Assembled t i cfg)
    (hq : q.self = .genesis g') : E.Story (t + 1) i g' := by
  have h := hm.leads
  have hcfg : E.Assembled (t + 1) i cfg := hs.mono (Nat.le_succ t)
  cases b with
  | reading =>
    cases hr : (E.cells t).registry <;>
      simp only [Work.next, Genesis.next, Rebuild.next, hr] at h <;> cases h <;> cases hq
    · exact .assembled hcfg
    · exact hcfg
  | asking r =>
    have ha := hm.answered (r := .registeredFileTypes) rfl
    simp only [Work.next, Genesis.next, Rebuild.next, Move.under_map, Move.under_awaiting] at h
    cases hans : answer .registeredFileTypes with
    | returned types =>
      rw [hans] at h
      cases h
      cases hq
      exact hcfg
    | panicked p =>
      rw [hans] at h ha
      cases h
      cases hq
      exact ha
  | storing e =>
    cases h
    cases hq
    exact hcfg

theorem Story.step (hm : E.Moves t i (.genesis g) fired answer q)
    (hs : E.Story t i g) (hopen : g.isOpen = true → (E.cells t).outcome.slot = none)
    (hq : q.self = .genesis g') : E.Story (t + 1) i g' := by
  have hle : t ≤ t + 1 := Nat.le_succ t
  have h := hm.leads
  cases g with
  | spawned =>
    cases h
    cases hq
    trivial
  | listing =>
    have ha := hm.answered (r := .listDescriptors) rfl
    cases h
    cases hq
    show E.Story _ _ (Genesis.afterListing (E.cells t).settings _)
    rw [settings_eq]
    exact story_afterListing ha
  | publishing r | loaded r =>
    cases h
    cases hq
    exact Registered.mono hs hle
  | starting r =>
    cases h
    cases hq
    exact ⟨Registered.mono hs hle, [], rfl, rfl, nofun⟩
  | assembling a =>
    have ha : E.Assembling (t + 1) i a := Assembling.mono hs hle
    cases hr : a.remaining with
    | nil =>
      simp only [Work.next, Genesis.next, hr] at h
      cases h
      cases hq
      exact ha.finish hr
    | cons d rest =>
      simp only [Work.next, Genesis.next, hr] at h
      cases h
      cases hq
      exact ⟨hr, ha⟩
  | opening a d rest =>
    have ha := hm.answered (r := .openIndex d) rfl
    cases h
    cases hq
    exact story_afterOpening hs.1 (hs.2.mono hle) ha
  | caching cfg =>
    cases h
    cases hq
    exact Assembled.mono hs hle
  | marking cfg b => exact story_of_marking hm hs hq
  | marked cfg =>
    cases h
    cases hq
    exact .assembled (Assembled.mono hs hle)
  | resolving o =>
    obtain ⟨g'', hg'', hclosed⟩ := hm.not_isOpen (.inr ⟨o, rfl⟩)
    obtain rfl : g'' = g' := Work.genesis.inj (hg''.symm.trans hq)
    exact story_of_not_isOpen (hm.slot_of_resolving (hopen rfl)) (Result.mono hs hle) hclosed
  | confirming e =>
    obtain ⟨g'', hg'', hclosed⟩ := hm.not_isOpen (.inl rfl)
    obtain rfl : g'' = g' := Work.genesis.inj (hg''.symm.trans hq)
    obtain ⟨o, ho, hr⟩ := hs
    exact story_of_not_isOpen ((cells_keep hle).outcome o ho) (hr.mono hle) hclosed
  | ended | unwound p => cases h

end

/-! ## a build at every moment -/

theorem exists_resolved {o : BuildOutcome} (h : (E.cells t).outcome.slot = some o) :
    ∃ i g, E.proc? t i = some (.genesis g) ∧ g.isOpen = false := by
  induction t with
  | zero =>
    obtain ⟨settings, generation, hfirst⟩ := E.isInitial
    have h' : E.first.outcome.slot = some o := h
    rw [hfirst] at h'
    cases h'
  | succ t ih =>
    obtain he | ⟨i, o', fired, answer, q, hm, _⟩ := outcome_succ (E := E) t
    · rw [he] at h
      obtain ⟨i, g, hi, hg⟩ := ih h
      obtain hi' | ⟨fired, answer, q, hm⟩ := Execution.proc_succ hi
      · exact ⟨i, g, hi', hg⟩
      · obtain ⟨g', hq, hg'⟩ := hm.not_isOpen (.inl hg)
        exact ⟨i, g', hq ▸ hm.self_succ, hg'⟩
    · obtain ⟨g', hq, hg'⟩ := hm.not_isOpen (.inr ⟨o', rfl⟩)
      exact ⟨i, g', hq ▸ hm.self_succ, hg'⟩

theorem slot_of_isOpen {g : Genesis} (h : E.proc? t i = some (.genesis g))
    (hg : g.isOpen = true) : (E.cells t).outcome.slot = none := by
  cases ho : (E.cells t).outcome.slot with
  | none => rfl
  | some o =>
    obtain ⟨j, g', hj, hg'⟩ := exists_resolved ho
    obtain rfl := one_builder h hj rfl rfl
    cases h.symm.trans hj
    rw [hg] at hg'
    cases hg'

theorem story {g : Genesis} (h : E.proc? t i = some (.genesis g)) : E.Story t i g := by
  induction t generalizing g with
  | zero => cases h
  | succ t ih =>
    obtain h' | ⟨w, fired, answer, q, hm, hq⟩ | ⟨_, k, _, hw⟩ |
      ⟨j, w, fired, answer, q, hm, hx, _⟩ := proc_of_succ h
    · exact (ih h').mono (Nat.le_succ t)
    · obtain ⟨g', rfl⟩ := (Work.of_next hm.leads).2.genesis hq
      exact (ih hm.proc).step hm (slot_of_isOpen hm.proc) hq
    · cases hw
    · obtain hx | ⟨k, hx⟩ := (Work.of_next hm.leads).2.spawned _ hx <;> cases hx
      trivial

theorem over_stays {w : Work} (h : E.proc? t i = some w) (hw : w.isOver = true) (htu : t ≤ u) :
    E.proc? u i = some w := by
  induction u, htu using Nat.le_induction with
  | base => exact h
  | succ u _ ih =>
    obtain h' | ⟨fired, answer, q, hm⟩ := Execution.proc_succ ih
    · exact h'
    · have hq := hm.leads
      unfold Work.isOver at hw
      split at hw <;> first | cases hq | cases hw

theorem resolving_stays {o : BuildOutcome} (h : E.proc? t i = some (.genesis (.resolving o)))
    (htu : t ≤ u) :
    E.proc? u i = some (.genesis (.resolving o)) ∨ (E.cells u).outcome.slot = some o := by
  induction u, htu using Nat.le_induction with
  | base => exact .inl h
  | succ u _ ih =>
    obtain ih | ih := ih
    · obtain h' | ⟨fired, answer, q, hm⟩ := Execution.proc_succ ih
      · exact .inl h'
      · exact .inr (hm.slot_of_resolving (slot_of_isOpen ih rfl))
    · exact .inr ((cells_keep (Nat.le_succ u)).outcome o ih)

theorem genesis_back {w : Work} {g : Genesis} (h : E.proc? t i = some w) (htu : t ≤ u)
    (hu : E.proc? u i = some (.genesis g)) : ∃ g', w = .genesis g' := by
  induction u, htu using Nat.le_induction generalizing g with
  | base => exact ⟨g, Option.some.inj (h.symm.trans hu)⟩
  | succ u hle ih =>
    obtain h' | ⟨w', fired, answer, q, hm, hq⟩ | ⟨_, k, _, hw⟩ |
      ⟨j, w', fired, answer, q, hm, _, hlen⟩ := proc_of_succ hu
    · exact ih h'
    · obtain ⟨g', rfl⟩ := (Work.of_next hm.leads).2.genesis hq
      exact ih hm.proc
    · cases hw
    · have hlt := proc?_lt h
      have := length_mono (E := E) hle
      omega

theorem calls_of_genesis {fired : Bool} {c : Cycle} {g : Genesis} {r : Request}
    {k : Outcome r.Answer → Progress Cycle Work}
    (h : Work.next fired c (.genesis g) = .call r k) :
    (r = .listDescriptors ∧ g = .listing) ∨
    (∃ a d rest, r = .openIndex d ∧ g = .opening a d rest) ∨
    ∃ cfg registry, r = .registeredFileTypes ∧ g = .marking cfg (.asking registry) := by
  cases g with
  | listing =>
    cases h
    exact .inl ⟨rfl, rfl⟩
  | opening a d rest =>
    cases h
    exact .inr (.inl ⟨a, d, rest, rfl, rfl⟩)
  | assembling a =>
    simp only [Work.next, Genesis.next] at h
    split at h <;> cases h
  | marking cfg b =>
    cases b with
    | reading =>
      cases hr : c.registry <;> simp only [Work.next, Genesis.next, Rebuild.next, hr] at h <;>
        cases h
    | asking registry =>
      cases h
      exact .inr (.inr ⟨cfg, registry, rfl, rfl⟩)
    | storing e => cases h
  | confirming e =>
    simp only [Work.next, Genesis.next] at h
    rcases hn : e.next c with ⟨c', e' | k⟩ <;> rw [hn] at h <;> cases h
  | _ => cases h

theorem Answered.of_genesis {g : Genesis} (h : E.proc? t i = some (.genesis g)) {r : Request}
    {a : Outcome r.Answer} (ha : E.Answered t i r a) :
    ∃ u g' fired answer q, u < t ∧ E.Moves u i (.genesis g') fired answer q ∧ answer r = a ∧
      ∃ k, Work.next fired (E.cells u) (.genesis g') = .call r k := by
  obtain ⟨u, hu, hends⟩ := ha
  obtain ⟨w, fired, answer, k, hm, hn, hans⟩ := hends.moves
  obtain ⟨g', rfl⟩ := genesis_back hm.proc (Nat.le_of_lt hu) h
  exact ⟨u, g', fired, answer, _, hu, hm, hans, k, hn⟩

theorem unwound_of_types {g : Genesis} {p : PanicPayload} (h : E.proc? t i = some (.genesis g))
    (hp : E.Answered t i .registeredFileTypes (.panicked p)) :
    E.proc? t i = some (.genesis (.unwound p)) := by
  obtain ⟨u, g', fired, answer, q, hu, hm, hans, k, hn⟩ := hp.of_genesis h
  obtain ⟨hr, _⟩ | ⟨_, _, _, hr, _⟩ | ⟨cfg, registry, _, rfl⟩ := calls_of_genesis hn
  · cases hr
  · cases hr
  have hq := hm.leads
  simp only [Work.next, Genesis.next, Rebuild.next, Move.under_map, Move.under_awaiting, hans]
    at hq
  cases hq
  exact over_stays hm.self_succ rfl hu

theorem resolving_of_panic {g : Genesis} {p : PanicPayload} (h : E.proc? t i = some (.genesis g))
    (hp : E.BuildPanicked t i p) :
    E.proc? t i = some (.genesis (.resolving (.error (.panicked p.message)))) ∨
      (E.cells t).outcome.slot = some (.error (.panicked p.message)) := by
  obtain hp | ⟨d, hp⟩ := hp
  all_goals
    obtain ⟨u, g', fired, answer, q, hu, hm, hans, k, hn⟩ := hp.of_genesis h
    refine resolving_stays ?_ hu
    have hq := hm.leads
    obtain ⟨hr, rfl⟩ | ⟨_, _, _, hr, rfl⟩ | ⟨_, _, hr, _⟩ := calls_of_genesis hn <;> cases hr
    simp only [Work.next, Genesis.next, Move.under_map, Move.under_awaiting, hans] at hq
    cases hq
    exact hm.self_succ

theorem BuildOver.cases (h : E.BuildOver t i) :
    (∃ o, (E.cells t).outcome.slot = some o ∧ E.Result t i o ∧
        ¬ ∃ p, E.Answered t i .registeredFileTypes (.panicked p)) ∨
      ((E.cells t).outcome.slot = none ∧
        ∃ p, E.Answered t i .registeredFileTypes (.panicked p)) := by
  obtain ⟨w, hw, hover⟩ := h
  unfold Work.isOver at hover
  split at hover
  · obtain ⟨o, ho, hr⟩ := story hw
    refine .inl ⟨o, ho, hr, fun ⟨p, hp⟩ => ?_⟩
    cases hw.symm.trans (unwound_of_types hw hp)
  · exact .inr ⟨slot_of_isOpen hw rfl, _, story hw⟩
  · cases hover

theorem blocked_iff (c : Cycle) :
    Work.next false c (.call (.awaitingConfiguration .parked)) = .blocked ↔
      c.outcome.slot = none := by
  obtain hs | ⟨o, hs⟩ := Option.eq_none_or_eq_some c.outcome.slot
  · simp [Work.next, CycleCall.next, Await.next, Promise.look, hs]
  · cases o <;>
      simp [Work.next, CycleCall.next, Await.next, Promise.look, hs, CycleCall.stay, CycleCall.stop]

/-- **The outcome of a build.**  Once the build of a cycle is over, its promise is resolved unless
the registry of file types panicked on the build.  What it is resolved with is the assembled
configuration or the error that the answers make of the build, which is the panic if the listing or
an opening panicked.  Who waits for it with a token that has not fired waits on, at every later
moment, exactly if the registry of file types panicked. -/
theorem build_resolves (h : E.BuildOver t i) :
    ((E.cells t).outcome.slot.isSome = true ↔
      ¬ ∃ p, E.Answered t i .registeredFileTypes (.panicked p)) ∧
    (∀ o, (E.cells t).outcome.slot = some o → E.Result t i o) ∧
    (∀ p, E.BuildPanicked t i p → (E.cells t).outcome.slot = some (.error (.panicked p.message))) ∧
    ∀ u, t ≤ u →
      (Work.next false (E.cells u) (.call (.awaitingConfiguration .parked)) = .blocked ↔
        ∃ p, E.Answered t i .registeredFileTypes (.panicked p)) := by
  obtain ⟨w, hw, hover⟩ := h
  have hcases := BuildOver.cases ⟨w, hw, hover⟩
  refine ⟨?_, fun o ho => ?_, fun p hp => ?_, fun u htu => ?_⟩
  · obtain ⟨o, ho, _, hnone⟩ | ⟨ho, hp⟩ := hcases
    · simp [ho, hnone]
    · simp [ho, hp]
  · obtain ⟨o', ho', hr, _⟩ | ⟨hnone, _⟩ := hcases
    · cases ho.symm.trans ho'
      exact hr
    · cases ho.symm.trans hnone
  · obtain ⟨g, rfl⟩ : ∃ g, w = .genesis g := by
      unfold Work.isOver at hover
      split at hover <;> first | exact ⟨_, rfl⟩ | cases hover
    obtain h | h := resolving_of_panic hw hp
    · cases hw.symm.trans h
      cases hover
    · exact h
  · rw [blocked_iff]
    obtain ⟨o, ho, _, hnone⟩ | ⟨_, p, hp⟩ := hcases
    · simp [(cells_keep htu).outcome o ho, hnone]
    · obtain ⟨_, _, _, hnone⟩ | ⟨ho, _⟩ := BuildOver.cases ⟨w, over_stays hw hover htu, hover⟩
      · exact absurd ⟨p, hp.mono htu⟩ hnone
      · exact iff_of_true ho ⟨p, hp⟩

def withoutFileTypes : Answering
  | .registeredFileTypes => .panicked (.text "types gone")
  | r => Answering.granting [] r

/-- a caller waits for a build in which the registry of file types panics -/
def stranded : Builds :=
  .ofList (.ofGeneration {} 1)
    (.enter (.call (.submitting .claiming)) :: .enter (.call (.awaitingConfiguration .reading)) ::
      ([0, 0, 0, 1] ++ List.replicate 9 2).map fun i => .move i false withoutFileTypes)
    ⟨_, _, rfl⟩ (by
      intro p hp s
      simp only [List.mem_cons, Cue.enter.injEq] at hp
      obtain rfl | rfl | hp := hp
      · exact ⟨_, .submit, rfl⟩
      · exact ⟨_, .awaitConfiguration, rfl⟩
      · obtain ⟨i, _, hi⟩ := List.mem_map.mp hp
        cases hi)

theorem stranded_over : stranded.BuildOver 15 2 := by
  have h : (stranded.proc? 15 2).any Work.isOver = true := by decide +kernel
  obtain ⟨w, hw, hover⟩ := (Option.any_eq_true ..).mp h
  exact ⟨w, hw, hover⟩

theorem build_resolves_stranded :
    stranded.BuildOver 15 2 ∧ (stranded.cells 15).outcome.slot = none ∧
    ∀ u, 15 ≤ u →
      Work.next false (stranded.cells u) (.call (.awaitingConfiguration .parked)) = .blocked := by
  have hnone : (stranded.cells 15).outcome.slot.isSome = false := by decide +kernel
  have h := build_resolves stranded_over
  refine ⟨stranded_over, Option.not_isSome_iff_eq_none.mp (by simp [hnone]), fun u hu =>
    (h.2.2.2 u hu).mpr ?_⟩
  by_contra hp
  rw [h.1.mpr hp] at hnone
  cases hnone

/-- the end of a build alone does not resolve the promise -/
theorem not_resolved_by_every_build :
    ¬ ∀ (E : Builds) (t i : Nat), E.BuildOver t i → (E.cells t).outcome.slot.isSome = true := by
  intro h
  have hsome := h stranded 15 2 stranded_over
  have hnone : (stranded.cells 15).outcome.slot.isSome = false := by decide +kernel
  rw [hnone] at hsome
  cases hsome

end Execution

end IndexCoordinator
