import IndexCoordinator.Proofs.Cycle.Course
import IndexCoordinator.Proofs.Cycle.Maintenance
import IndexCoordinator.Proofs.Cycle.Openings
import IndexCoordinator.Proofs.Record

/-!
# A build takes its course

The build of a cycle makes its moves among those of other callers, and every move that it makes
follows the course that the answers of the extension host and of storage set.

* `Course.Heads`, `Work.Moves.heads`   how much of its course a build has behind it where it stands,
                                 and one move of it;
* `Work.Moves.goes_on`           such a move brings the build nearer to what it comes to;
* `Execution.Stands.heads`       the build is on its course at every moment of an execution;
* `Execution.build_takes_course` it takes its course, and comes to its end.
-/

namespace IndexCoordinator

namespace Event

def attempt? : Event → Option IndexDescriptor
  | .entered (.openIndex d) => some d
  | _ => none

def opening? : Event → Option IndexDescriptor
  | .left (.openIndex d) .completed => some d
  | _ => none

end Event

namespace Course

/-! ## where a build stands -/

/-- what a build has behind it where it stands: whether the registry is published, what it asked
storage to open, and what storage has opened -/
def Heads (opening : IndexDescriptor → Opening) (c : Course) (registry : Option Registry)
    (asked opened : List IndexDescriptor) : Genesis → Prop
  | .spawned => registry = none ∧ asked = [] ∧ opened = []
  | .listing => registry = none ∧ asked = [] ∧ opened = []
  | .publishing r => c = ofRegistry opening r ∧ registry = none ∧ asked = [] ∧ opened = []
  | .loaded r => c = ofRegistry opening r ∧ registry = some r ∧ asked = [] ∧ opened = []
  | .starting r => c = ofRegistry opening r ∧ registry = some r ∧ asked = [] ∧ opened = []
  | .assembling a => c = ofAssembly opening a opened ∧ registry = some a.registry ∧ asked = opened
  | .opening a d rest => a.remaining = d :: rest ∧ c = ofAssembly opening a opened ∧
      registry = some a.registry ∧ asked = opened ++ [d]
  | .caching cfg => c = ⟨.ok cfg, registry, asked, opened⟩
  | .marking cfg _ => c = ⟨.ok cfg, registry, asked, opened⟩
  | .marked cfg => c = ⟨.ok cfg, registry, asked, opened⟩
  | .resolving o => c = ⟨o, registry, asked, opened⟩
  | _ => registry = c.registry ∧ asked = c.asked ∧ opened = c.opened

/-- how far a course is behind: the registry is published before the first index is opened -/
structure Passed (c : Course) (registry : Option Registry) (asked opened : List IndexDescriptor) :
    Prop where
  registry : (registry = none ∧ asked = []) ∨ registry = c.registry
  asked : asked <+: c.asked
  opened : opened <+: c.opened

theorem asked_cons (opening : IndexDescriptor → Opening) (d : IndexDescriptor)
    (rest : List IndexDescriptor) : ∃ l, IndexConfiguration.asked opening (d :: rest) = d :: l := by
  rw [IndexConfiguration.asked]
  split
  · exact ⟨_, rfl⟩
  · exact ⟨[], rfl⟩

section
variable {opening : IndexDescriptor → Opening} {c : Course} {registry : Option Registry}
  {asked opened : List IndexDescriptor} {g : Genesis}

theorem Heads.passed (h : c.Heads opening registry asked opened g) :
    c.Passed registry asked opened := by
  cases g with
  | spawned | listing =>
    obtain ⟨rfl, rfl, rfl⟩ := h
    exact ⟨.inl ⟨rfl, rfl⟩, List.nil_prefix, List.nil_prefix⟩
  | publishing r =>
    obtain ⟨rfl, rfl, rfl, rfl⟩ := h
    exact ⟨.inl ⟨rfl, rfl⟩, List.nil_prefix, List.nil_prefix⟩
  | loaded r | starting r =>
    obtain ⟨rfl, rfl, rfl, rfl⟩ := h
    exact ⟨.inr rfl, List.nil_prefix, List.nil_prefix⟩
  | assembling a =>
    obtain ⟨rfl, rfl, rfl⟩ := h
    exact ⟨.inr rfl, List.prefix_append _ _, List.prefix_append _ _⟩
  | opening a d rest =>
    obtain ⟨hrest, rfl, rfl, rfl⟩ := h
    refine ⟨.inr rfl, ?_, List.prefix_append _ _⟩
    obtain ⟨l, hl⟩ := asked_cons opening d rest
    show _ <+: opened ++ IndexConfiguration.asked opening a.remaining
    rw [hrest, hl]
    exact (List.prefix_append_right_inj opened).mpr ⟨l, rfl⟩
  | caching | marking | marked | resolving =>
    subst h
    exact ⟨.inr rfl, List.prefix_refl _, List.prefix_refl _⟩
  | confirming | ended | unwound =>
    obtain ⟨rfl, rfl, rfl⟩ := h
    exact ⟨.inr rfl, List.prefix_refl _, List.prefix_refl _⟩

theorem heads_afterListing (settings : IndexingSettings) (opening : IndexDescriptor → Opening)
    (a : Listing) :
    (ofListing settings opening a).Heads opening none [] [] (Genesis.afterListing settings a) := by
  obtain (e | ds) | p := a
  · rfl
  · unfold Genesis.afterListing ofListing
    cases hr : Genesis.register settings ds with
    | ok r =>
      simp only [hr]
      exact ⟨rfl, rfl, rfl, rfl⟩
    | error e =>
      simp only [hr]
      rfl
  · rfl

theorem heads_afterOpening {a : Assembly} {d : IndexDescriptor} {rest : List IndexDescriptor}
    (hr : a.remaining = d :: rest) :
    (ofAssembly opening a opened).Heads opening (some a.registry) (opened ++ [d])
      (opened ++ [Event.left (.openIndex d) (Request.ending (.openIndex d) (opening d))].filterMap
        Event.opening?)
      (Genesis.afterOpening a d rest (opening d)) := by
  cases hd : opening d with
  | panicked p =>
    rw [ofAssembly_panicked hr hd]
    show _ = Course.mk _ _ _ (opened ++ [])
    rw [List.append_nil]
  | returned answer =>
    cases answer with
    | error e =>
      rw [ofAssembly_refused hr hd]
      show _ = Course.mk _ _ _ (opened ++ [])
      rw [List.append_nil]
    | ok => exact ⟨ofAssembly_opened hr hd, rfl, rfl⟩

end

end Course

namespace Genesis

/-- the configuration is not built, nor is it certain that it cannot be -/
def isBuilding : Genesis → Bool
  | .spawned => true
  | .listing => true
  | .publishing _ => true
  | .loaded _ => true
  | .starting _ => true
  | .assembling _ => true
  | .opening _ _ _ => true
  | _ => false

/-- what the build has come to, where that stands and is not resolved -/
def built? : Genesis → Option BuildOutcome
  | .caching cfg => some (.ok cfg)
  | .marking cfg _ => some (.ok cfg)
  | .marked cfg => some (.ok cfg)
  | .resolving o => some o
  | _ => none

/-- how many moves a build makes on its course before it has come to something -/
def movesLeft (opening : IndexDescriptor → Opening) (c : Course) : Genesis → Nat
  | .spawned => 2 * c.asked.length + 6
  | .listing => 2 * c.asked.length + 5
  | .publishing _ => 2 * c.asked.length + 4
  | .loaded _ => 2 * c.asked.length + 3
  | .starting _ => 2 * c.asked.length + 2
  | .assembling a => 2 * (IndexConfiguration.asked opening a.remaining).length + 1
  | .opening _ d rest => 2 * (IndexConfiguration.asked opening (d :: rest)).length
  | _ => 0

theorem not_building_of_built {g : Genesis} {o : BuildOutcome} (h : g.built? = some o) :
    g.isBuilding = false := by
  cases g <;> first | rfl | cases h

theorem movesLeft_pos {g : Genesis} (hg : g.isBuilding = true)
    (opening : IndexDescriptor → Opening) (c : Course) : 0 < g.movesLeft opening c := by
  cases g with
  | spawned | listing | publishing | loaded | starting | assembling => exact Nat.succ_pos _
  | opening a d rest =>
    obtain ⟨l, hl⟩ := Course.asked_cons opening d rest
    rw [movesLeft, hl]
    exact Nat.succ_pos _
  | _ => cases hg

end Genesis

namespace Work

def isBuilding : Work → Bool
  | .genesis g => g.isBuilding
  | _ => false

def movesLeft (opening : IndexDescriptor → Opening) (c : Course) : Work → Nat
  | .genesis g => g.movesLeft opening c
  | _ => 0

theorem exists_genesis_of_building {w : Work} (h : w.isBuilding = true) :
    ∃ g, w = .genesis g ∧ g.isBuilding = true := by
  cases w with
  | genesis g => exact ⟨g, rfl, h⟩
  | _ => cases h

section
variable {fired : Bool} {answer : Answering} {cells : Cycle} {q : Progress Cycle Work}
  {g g' : Genesis} {opening : IndexDescriptor → Opening} {c : Course}
  {asked opened : List IndexDescriptor}

theorem exists_under_of_building (fired : Bool) (cells : Cycle) (answer : Answering)
    (hg : g.isBuilding = true) : ∃ q, (next fired cells (.genesis g)).under answer = some q := by
  cases g with
  | assembling a => cases hr : a.remaining <;> exact ⟨_, by simp only [next, Genesis.next, hr]; rfl⟩
  | spawned | listing | publishing | loaded | starting | opening => exact ⟨_, rfl⟩
  | _ => cases hg

theorem Moves.heads (h : Moves fired answer cells (.genesis g) q)
    (hs : c.Heads opening cells.registry asked opened g)
    (hlist : g = .listing →
      c = Course.ofListing cells.settings opening (answer .listDescriptors))
    (hopen : ∀ a d rest, g = .opening a d rest → answer (.openIndex d) = opening d)
    (hq : q.self = .genesis g') :
    c.Heads opening q.shared.registry (asked ++ q.events.filterMap Event.attempt?)
      (opened ++ q.events.filterMap Event.opening?) g' := by
  -- a move that has nothing to do with openings
  have hsilent {events : List Event} {registry : Option Registry} {g : Genesis}
      (hasked : events.filterMap Event.attempt? = [])
      (hopened : events.filterMap Event.opening? = [])
      (h : c.Heads opening registry asked opened g) :
      c.Heads opening registry (asked ++ events.filterMap Event.attempt?)
        (opened ++ events.filterMap Event.opening?) g := by
    rw [hasked, hopened, List.append_nil, List.append_nil]
    exact h
  cases h with
  | list =>
    cases hq
    exact hsilent rfl rfl hs
  | listed =>
    cases hq
    refine hsilent rfl rfl ?_
    obtain ⟨hregistry, rfl, rfl⟩ := hs
    rw [hlist rfl]
    show Course.Heads _ _ cells.registry _ _ _
    rw [hregistry]
    exact Course.heads_afterListing _ _ _
  | publish =>
    cases hq
    exact hsilent rfl rfl ⟨hs.1, rfl, hs.2.2⟩
  | load =>
    cases hq
    exact hsilent rfl rfl hs
  | begin =>
    cases hq
    obtain ⟨hc, hregistry, rfl, rfl⟩ := hs
    exact hsilent rfl rfl ⟨hc, hregistry, rfl⟩
  | @enterIndex a d rest hr =>
    cases hq
    obtain ⟨hc, hregistry, rfl⟩ := hs
    show Course.Heads _ _ _ (asked ++ [d]) (asked ++ []) _
    rw [List.append_nil]
    exact ⟨hr, hc, hregistry, rfl⟩
  | @opened a d rest =>
    cases hq
    obtain ⟨hr, rfl, hregistry, rfl⟩ := hs
    rw [hopen a d rest rfl]
    show Course.Heads _ _ cells.registry (opened ++ [d] ++ []) _ _
    rw [List.append_nil, hregistry]
    exact Course.heads_afterOpening hr
  | assembled hr =>
    cases hq
    obtain ⟨hc, hregistry, rfl⟩ := hs
    refine hsilent rfl rfl ?_
    rw [hc, Course.ofAssembly_finish hr, ← hregistry]
    rfl
  | cache | marked =>
    cases hq
    exact hsilent rfl rfl hs
  | mark hb =>
    cases hb with
    | panicked =>
      cases hq
      subst hs
      exact hsilent rfl rfl ⟨rfl, rfl, rfl⟩
    | _ =>
      cases hq
      exact hsilent rfl rfl hs
  | @resolve o =>
    cases hq
    subst hs
    refine hsilent rfl rfl ?_
    cases o <;> exact ⟨rfl, rfl, rfl⟩
  | @confirm e _ _ hn | @confirmed e _ _ hn =>
    cases hq
    have he := (Effect.of_ensure (w := .genesis (.confirming e)) cells e).1
    rw [hn] at he
    obtain hregistry | ⟨_, hw, _⟩ := he.registry
    · exact hsilent rfl rfl ⟨hregistry.trans hs.1, hs.2⟩
    · cases hw

theorem Moves.not_building (h : Moves fired answer cells (.genesis g) q)
    (hg : g.isBuilding = false) (hq : q.self = .genesis g') : g'.isBuilding = false := by
  cases h with
  | list | listed | publish | load | begin | enterIndex | opened | assembled => cases hg
  | cache | marked | confirm | confirmed =>
    cases hq
    rfl
  | mark hb =>
    cases hq
    cases hb <;> rfl
  | @resolve o =>
    cases hq
    cases o <;> rfl

/-- **A build comes to something, or it goes on and has fewer moves left.** -/
theorem Moves.goes_on (h : Moves fired answer cells (.genesis g) q) (hg : g.isBuilding = true)
    (hs : c.Heads opening cells.registry asked opened g)
    (hopen : ∀ a d rest, g = .opening a d rest → answer (.openIndex d) = opening d)
    (hq : q.self = .genesis g') :
    (∃ o, g'.built? = some o) ∨
      g'.isBuilding = true ∧ g'.movesLeft opening c < g.movesLeft opening c := by
  cases h with
  | list | publish | load =>
    cases hq
    exact .inr ⟨rfl, Nat.lt_succ_self _⟩
  | listed =>
    cases hq
    unfold Genesis.afterListing
    split
    · split
      · exact .inr ⟨rfl, Nat.lt_succ_self _⟩
      · exact .inl ⟨_, rfl⟩
    · exact .inl ⟨_, rfl⟩
    · exact .inl ⟨_, rfl⟩
  | begin =>
    cases hq
    obtain ⟨rfl, _⟩ := hs
    exact .inr ⟨rfl, Nat.lt_succ_self _⟩
  | enterIndex hr =>
    cases hq
    refine .inr ⟨rfl, ?_⟩
    rw [Genesis.movesLeft, Genesis.movesLeft, hr]
    exact Nat.lt_succ_self _
  | @opened a d rest =>
    cases hq
    show (∃ o, (Genesis.afterOpening a d rest (answer (.openIndex d))).built? = some o) ∨ _
    rw [hopen a d rest rfl]
    cases hd : opening d with
    | panicked => exact .inl ⟨_, rfl⟩
    | returned ans =>
      cases ans with
      | error => exact .inl ⟨_, rfl⟩
      | ok =>
        refine .inr ⟨rfl, ?_⟩
        show 2 * (IndexConfiguration.asked opening rest).length + 1 <
          2 * (IndexConfiguration.asked opening (d :: rest)).length
        rw [IndexConfiguration.asked, hd, List.length_cons]
        omega
  | assembled =>
    cases hq
    exact .inl ⟨_, rfl⟩
  | cache | mark | marked | resolve | confirm | confirmed => cases hg

theorem Moves.aside {w : Work} (h : Moves fired answer cells w q) (hw : ∀ g, w ≠ .genesis g) :
    q.events.filterMap Event.attempt? = [] ∧ q.events.filterMap Event.opening? = [] := by
  refine ⟨List.filterMap_eq_nil_iff.mpr fun e he => ?_,
    List.filterMap_eq_nil_iff.mpr fun e he => ?_⟩
  · unfold Event.attempt?
    split
    · cases h.asks he
      exact absurd rfl (hw _)
    · rfl
  · unfold Event.opening?
    split
    · obtain ⟨_, _, rfl⟩ := h.opening he
      exact absurd rfl (hw _)
    · rfl

end

end Work

namespace Execution

section
variable (E : Builds) (listing : Listing) (opening : IndexDescriptor → Opening)

/-- whenever the extension host and storage answer the build, they answer like this -/
structure Behaves : Prop where
  lists : ∀ t i a, E.CallEnds t i .listDescriptors a → a = listing
  opens : ∀ t i d a, E.CallEnds t i (.openIndex d) a → a = opening d

/-- the indexes that storage was asked to open, in order -/
def attempts (t : Nat) : List IndexDescriptor := (E.run t).trace.filterMap Event.attempt?

/-- the indexes that storage has opened, in order -/
def openings (t : Nat) : List IndexDescriptor := (E.run t).trace.filterMap Event.opening?

/-- the build has come to an outcome, which may still have to be resolved -/
def Concludes (t : Nat) (o : BuildOutcome) : Prop :=
  ∃ u ≤ t, ∃ g, E.Stands u g ∧ g.built? = some o

def course : Course := .ofListing E.first.settings opening listing

end

variable {E : Builds} {listing : Listing} {opening : IndexDescriptor → Opening} {t u i n : Nat}
  {g g' : Genesis} {o : BuildOutcome}

theorem quiet_succ (h : ∀ i g fired answer q, ¬ E.Moves t i (.genesis g) fired answer q) :
    (E.cells (t + 1)).registry = (E.cells t).registry ∧ E.attempts (t + 1) = E.attempts t ∧
      E.openings (t + 1) = E.openings t := by
  unfold attempts openings cells
  obtain he | ⟨w, _, _, he⟩ | ⟨i, w, fired, answer, q, hm⟩ := tick (E := E) t
  · rw [he]
    exact ⟨rfl, rfl, rfl⟩
  · rw [he]
    exact ⟨rfl, rfl, rfl⟩
  · have hw (g : Genesis) : w ≠ .genesis g := by
      rintro rfl
      exact h i g fired answer q hm
    obtain ⟨hasked, hopened⟩ := hm.work.aside hw
    rw [hm.run, Run.shared_commit, Run.trace_commit, List.filterMap_append, List.filterMap_append,
      hasked, hopened, List.append_nil, List.append_nil]
    refine ⟨?_, rfl, rfl⟩
    obtain he | ⟨r, rfl, _⟩ := (Work.of_next hm.leads).1.registry
    · exact he
    · exact absurd rfl (hw _)

theorem Behaves.listed (hE : E.Behaves listing opening) {fired : Bool} {answer : Answering}
    {q : Progress Cycle Work} (hm : E.Moves t i (.genesis g) fired answer q) (hg : g = .listing) :
    answer .listDescriptors = listing := by
  subst hg
  exact hE.lists t i _ ⟨_, fired, answer, _, hm.proc, hm.cue, rfl, rfl⟩

theorem Behaves.opened (hE : E.Behaves listing opening) {fired : Bool} {answer : Answering}
    {q : Progress Cycle Work} (hm : E.Moves t i (.genesis g) fired answer q) (a : Assembly)
    (d : IndexDescriptor) (rest : List IndexDescriptor) (hg : g = .opening a d rest) :
    answer (.openIndex d) = opening d := by
  subst hg
  exact hE.opens t i d _ ⟨_, fired, answer, _, hm.proc, hm.cue, rfl, rfl⟩

theorem Stands.heads (hE : E.Behaves listing opening) (h : E.Stands t g) :
    (E.course listing opening).Heads opening (E.cells t).registry (E.attempts t) (E.openings t)
      g := by
  induction t generalizing g with
  | zero =>
    obtain ⟨settings, generation, hcells⟩ := cells_zero (E := E)
    cases h with
    | build hi => cases hi
    | ahead =>
      rw [hcells]
      exact ⟨rfl, rfl, rfl⟩
  | succ t ih =>
    by_cases hbuild : ∃ i g fired answer q, E.Moves t i (.genesis g) fired answer q
    · obtain ⟨i, g₀, fired, answer, q, hm⟩ := hbuild
      have hmove := hm.work.heads (ih (.build hm.proc)) (fun hg => ?_) (hE.opened hm)
        (hm.genesis_succ h)
      · unfold attempts openings
        rw [hm.run, Run.trace_commit, List.filterMap_append, List.filterMap_append, hm.cells_succ]
        exact hmove
      · rw [hE.listed hm hg, settings_eq]
        rfl
    · have hnone (i g fired answer q) : ¬ E.Moves t i (.genesis g) fired answer q :=
        fun hm => hbuild ⟨i, g, fired, answer, q, hm⟩
      obtain ⟨hregistry, hasked, hopened⟩ := quiet_succ hnone
      rw [hregistry, hasked, hopened]
      obtain ⟨i, g₀, fired, answer, q, hm, _⟩ | ⟨h', _⟩ := h.back
      · exact absurd hm (hnone i g₀ fired answer q)
      · exact ih h'

theorem passed (hE : E.Behaves listing opening) (t : Nat) :
    (E.course listing opening).Passed (E.cells t).registry (E.attempts t) (E.openings t) := by
  obtain ⟨g, hg⟩ := exists_stands (E := E) t
  exact (hg.heads hE).passed

/-! ## the end of the course -/

theorem Concludes.mono (h : E.Concludes t o) (htu : t ≤ u) : E.Concludes u o := by
  obtain ⟨v, hv, h⟩ := h
  exact ⟨v, Nat.le_trans hv htu, h⟩

/-- **A build that has come to an outcome has its course behind it,** then and ever after. -/
theorem Concludes.course (hE : E.Behaves listing opening) (h : E.Concludes t o) :
    E.course listing opening = ⟨o, (E.cells t).registry, E.attempts t, E.openings t⟩ := by
  obtain ⟨u, hut, g, hg, ho⟩ := h
  have hthen : E.course listing opening
      = ⟨o, (E.cells u).registry, E.attempts u, E.openings u⟩ := by
    have hheads := hg.heads hE
    cases g with
    | caching | marking | marked | resolving =>
      cases ho
      exact hheads
    | _ => cases ho
  obtain ⟨hregistry, hasked, hopened⟩ := passed hE t
  have hattempts : E.attempts u <+: E.attempts t := (trace_mono hut).filterMap _
  have hopenings : E.openings u <+: E.openings t := (trace_mono hut).filterMap _
  rw [hthen] at hregistry hasked hopened ⊢
  have hkept : (E.cells u).registry = (E.cells t).registry := by
    cases hu : (E.cells u).registry with
    | some r => exact (registry_kept hu hut).symm
    | none =>
      rw [hu] at hregistry
      obtain ⟨hnone, _⟩ | hnone := hregistry <;> exact hnone.symm
  rw [hkept, hattempts.eq_of_length_le hasked.length_le,
    hopenings.eq_of_length_le hopened.length_le]

theorem concludes_of_slot (h : (E.cells t).outcome.slot = some o) : E.Concludes t o := by
  induction t with
  | zero =>
    obtain ⟨settings, generation, hcells⟩ := cells_zero (E := E)
    rw [hcells] at h
    cases h
  | succ t ih =>
    have hle := Nat.le_succ t
    obtain he | ⟨i, o', fired, answer, q, hm, he⟩ := outcome_succ (E := E) t
    · exact (ih (he ▸ h)).mono hle
    · have hslot := hm.slot_of_resolving (slot_of_isOpen hm.proc rfl)
      cases hslot.symm.trans h
      exact ⟨t, hle, _, .build hm.proc, rfl⟩

theorem concludes_of_not_building (hE : E.Behaves listing opening)
    (h : E.proc? t i = some (.genesis g)) (hg : g.isBuilding = false) : ∃ o, E.Concludes t o := by
  induction t generalizing g with
  | zero => cases h
  | succ t ih =>
    have hle := Nat.le_succ t
    obtain h' | ⟨w, fired, answer, q, hm, hq⟩ | ⟨_, k, _, hw⟩ |
      ⟨j, w, fired, answer, q, hm, hx, _⟩ := proc_of_succ h
    · exact (ih h' hg).imp fun o ho => ho.mono hle
    · obtain ⟨g₀, rfl⟩ := (Work.of_next hm.leads).2.genesis hq
      cases hg₀ : g₀.isBuilding with
      | false => exact (ih hm.proc hg₀).imp fun o ho => ho.mono hle
      | true =>
        have hheads := (Stands.build hm.proc).heads hE
        obtain ⟨o, ho⟩ | ⟨hstill, _⟩ := hm.work.goes_on hg₀ hheads (hE.opened hm) hq
        · exact ⟨o, t + 1, Nat.le_refl _, g, .build h, ho⟩
        · cases hg.symm.trans hstill
    · cases hw
    · obtain hx | ⟨k, hx⟩ := (Work.of_next hm.leads).2.spawned _ hx <;> cases hx
      cases hg

theorem Moves.not_building {w : Work} {fired : Bool} {answer : Answering} {q : Progress Cycle Work}
    (hm : E.Moves t i w fired answer q) (hw : w.isBuilding = false) :
    q.self.isBuilding = false := by
  cases hself : q.self with
  | genesis g' =>
    obtain ⟨g, rfl⟩ := (Work.of_next hm.leads).2.genesis hself
    exact hm.work.not_building hw hself
  | _ => rfl

theorem exists_genesis (h : E.proc? t i = some (.genesis g)) (htu : t ≤ u) :
    ∃ g', E.proc? u i = some (.genesis g') := by
  induction u, htu using Nat.le_induction with
  | base => exact ⟨g, h⟩
  | succ u _ ih =>
    obtain ⟨g', hg'⟩ := ih
    exact exists_genesis_succ hg'

/-- **A build comes to an outcome after so many turns,** whoever else moves meanwhile. -/
theorem exists_concludes (hE : E.Behaves listing opening)
    (h : E.proc? t i = some (.genesis .spawned))
    (hn : 2 * (E.course listing opening).asked.length + 6 ≤ E.turnsOf i t n) :
    ∃ o, E.Concludes (t + n) o := by
  obtain ⟨w, hw, hend⟩ : ∃ w, E.proc? (t + n) i = some w ∧ (w.isBuilding = false ∨
      E.turnsOf i t n + w.movesLeft opening (E.course listing opening) ≤
        2 * (E.course listing opening).asked.length + 6) := by
    refine turnsOf_add_rank_le (Work.movesLeft opening (E.course listing opening))
      (fun w => w.isBuilding = false) (fun u w fired answer q hm => hm.not_building)
      (fun u w fired answer _ _ hw hbuilding hcue => ?_) h
    obtain ⟨g, rfl, hg⟩ := Work.exists_genesis_of_building ((Bool.not_eq_false _).mp hbuilding)
    obtain ⟨q, hq⟩ := Work.exists_under_of_building fired (E.cells u) answer hg
    have hm := Moves.of_cue hcue hw hq
    obtain ⟨g', hself⟩ := hm.work.genesis
    have hheads := (Stands.build hw).heads hE
    refine ⟨q, hm, (hm.work.goes_on hg hheads (hE.opened hm) hself).imp ?_ ?_⟩ <;> rw [hself]
    · rintro ⟨o, ho⟩
      exact Genesis.not_building_of_built ho
    · rintro ⟨_, hlt⟩
      exact hlt
  obtain ⟨g, hg⟩ := exists_genesis h (Nat.le_add_right t n)
  cases hw.symm.trans hg
  cases hbuilding : g.isBuilding with
  | false => exact concludes_of_not_building hE hg hbuilding
  | true =>
    obtain hdone | hrank := hend
    · cases hdone.symm.trans hbuilding
    · have hpos := Genesis.movesLeft_pos hbuilding opening (E.course listing opening)
      change _ + g.movesLeft opening _ ≤ _ at hrank
      omega

/-- **A build takes its course.**  Let the extension host and storage answer in one way each, while any
callers work on the cycle.  Then there is one course that fits these answers:

* a listing that fails or panics is an error of the build, and so is the first descriptor that
  repeats an id and is not passed over; nothing is published and nothing opened;
* else the registry is published, and its indexes are opened in order, up to the first that storage
  refuses or on which it panics, with the error that says so;
* or all are opened, and the configuration agrees with the registry about every id.

At every moment a first part of the course is behind: the registry is published before storage is
asked to open an index, and no index is asked for twice.  What the build has come to, and so what its
promise holds, is the outcome of the course, with exactly these effects, then and ever after; and it
comes to it after so many turns. -/
theorem build_takes_course (hE : E.Behaves listing opening) :
    ∃ c : Course, c.Fits E.first.settings.skipFilenameIndex listing opening ∧
      (c.asked.map (·.id)).Nodup ∧
      (∀ t, c.Passed (E.cells t).registry (E.attempts t) (E.openings t)) ∧
      (∀ t o, E.Concludes t o → c = ⟨o, (E.cells t).registry, E.attempts t, E.openings t⟩) ∧
      (∀ t o, (E.cells t).outcome.slot = some o → E.Concludes t o) ∧
      ∀ t i n, E.proc? t i = some (.genesis .spawned) →
        2 * c.asked.length + 6 ≤ E.turnsOf i t n → ∃ o, E.Concludes (t + n) o := by
  have hfits := Course.fits_ofListing E.first.settings opening listing
  exact ⟨E.course listing opening, hfits, hfits.nodup, passed hE, fun t o h => h.course hE,
    fun t o h => concludes_of_slot h, fun t i n h hn => exists_concludes hE h hn⟩

/-- the extension host lists three indexes, and storage panics on the second -/
def tearing : Answering
  | .listDescriptors =>
    .returned (.ok [{ id := ⟨"words", 1⟩ }, { id := ⟨"lines", 2⟩ }, { id := ⟨"names", 3⟩ }])
  | .openIndex d => if d.id.number = 2 then .panicked (.text "torn") else .returned (.ok ())
  | r => Answering.granting [] r

/-- a build with these answers, while another caller resets the hints -/
def torn : Builds :=
  .ofScript tearing
    [(.submitting .claiming, ([0, 0, 0] ++ List.replicate 5 1).map (·, false)),
      (.resettingHints .reading, [2, 1, 1, 2, 1, 1, 2, 1].map (·, false))]
    ⟨.submit, .resetHints⟩

theorem behaves_torn :
    torn.Behaves (tearing .listDescriptors) fun d => tearing (.openIndex d) :=
  ⟨fun _ _ _ h => h.of_script.symm, fun _ _ _ _ h => h.of_script.symm⟩

/-- storage was asked for the second index after it had opened the first, and not for the third -/
theorem build_takes_course_torn :
    ∃ c : Course, c.Fits false (tearing .listDescriptors) (fun d => tearing (.openIndex d)) ∧
      torn.Concludes 18 c.outcome ∧ c.outcome = .error (.panicked "torn") ∧
      c.registry.isSome = true ∧ c.asked.map (·.id.number) = [1, 2] ∧
      c.opened.map (·.id.number) = [1] := by
  obtain ⟨c, hfits, _, _, hend, hslot, _⟩ := build_takes_course behaves_torn
  have hresolved : (torn.cells 18).outcome.slot.any
      (fun | .error e => e == .panicked "torn" | .ok _ => false) = true := by
    decide +kernel
  obtain ⟨o, ho, htorn⟩ := (Option.any_eq_true ..).mp hresolved
  cases o with
  | ok => cases htorn
  | error e =>
    obtain rfl := eq_of_beq htorn
    have hconcludes := hslot 18 _ ho
    have hregistry : (torn.cells 18).registry.isSome = true := by decide +kernel
    have hasked : (torn.attempts 18).map (·.id.number) = [1, 2] := by decide +kernel
    have hopened : (torn.openings 18).map (·.id.number) = [1] := by decide +kernel
    rw [hend 18 _ hconcludes] at hfits
    exact ⟨_, hfits, hconcludes, rfl, hregistry, hasked, hopened⟩

end Execution

end IndexCoordinator
