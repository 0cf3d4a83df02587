import IndexCoordinator.Proofs.Cycle.Coherence
import IndexCoordinator.Proofs.Cycle.Lookup

/-!
# Lookups and resets of the hints

A lookup is answered as soon as an evaluator is published.  The build makes one when it has its
configuration; a reset of the hints makes one as soon as it finds a published registry, which the
build publishes before storage has opened the first index.

* `Execution.Built`, `Execution.BuildFailed`   how the building of the configuration came out;
* `Execution.ResetEarly`           a reset found the registry before the configuration was built;
* `Execution.origin_of_rebuild`, `Execution.origin_of_evaluator`   where evaluators come from;
* `Execution.lookups_follow_evaluator`   a lookup is answered exactly if there is an evaluator,
                                   so only after the build has its configuration or after an early
                                   reset;
* `Execution.not_rejected_until_built`   early resets happen.
-/

namespace IndexCoordinator

namespace Genesis

/-- the configuration that a build has made and not promised yet -/
def configuration? : Genesis → Option IndexConfiguration
  | .caching cfg => some cfg
  | .marking cfg _ => some cfg
  | .marked cfg => some cfg
  | .resolving (.ok cfg) => some cfg
  | _ => none

def isPast : Genesis → Bool
  | .confirming _ => true
  | .ended => true
  | .unwound _ => true
  | g => g.configuration?.isSome

theorem isPast_of_configuration? {g : Genesis} (h : g.configuration?.isSome = true) :
    g.isPast = true := by
  cases g with
  | caching | marking | marked | resolving => exact h
  | _ => cases h

end Genesis

def Reply.isFound : Reply → Bool
  | .ids _ => true
  | .views _ _ => true
  | _ => false

theorem Reply.ne_of_isFound {r : Reply} (h : r.isFound = true) : r ≠ .failed .notInitialized := by
  rintro rfl
  cases h

theorem Work.Moves.isPast {fired : Bool} {answer : Answering} {c : Cycle} {g g' : Genesis}
    {q : Progress Cycle Work} (h : Work.Moves fired answer c (.genesis g) q)
    (hg : g.isPast = true) (hq : q.self = .genesis g') : g'.isPast = true := by
  cases h with
  | cache | marked | confirm | confirmed =>
    cases hq
    rfl
  | mark hb => cases hb <;> cases hq <;> rfl
  | @resolve o => cases o <;> cases hq <;> rfl
  | _ => cases hg

namespace Execution

section
variable (E : Builds) (t : Nat)

/-- the build has made its configuration -/
def Built : Prop :=
  ∃ u i g, u ≤ t ∧ E.proc? u i = some (.genesis g) ∧ g.configuration?.isSome = true

/-- the build has failed to make a configuration -/
def BuildFailed : Prop :=
  ∃ u i e, u ≤ t ∧ E.proc? u i = some (.genesis (.resolving (.error e)))

/-- a reset of the hints has found the published registry before the build had its configuration -/
def ResetEarly : Prop :=
  ∃ u i r fired answer q, u < t ∧
    E.Moves u i (.call (.resettingHints .reading)) fired answer q ∧
    (E.cells u).registry = some r ∧ ¬ E.Built u

end

variable {E : Builds} {t u v i j : Nat}

theorem Built.mono (h : E.Built t) (htu : t ≤ u) : E.Built u := by
  obtain ⟨v, i, g, hv, h⟩ := h
  exact ⟨v, i, g, Nat.le_trans hv htu, h⟩

theorem ResetEarly.mono (h : E.ResetEarly t) (htu : t ≤ u) : E.ResetEarly u := by
  obtain ⟨v, i, r, fired, answer, q, hv, h⟩ := h
  exact ⟨v, i, r, fired, answer, q, Nat.lt_of_lt_of_le hv htu, h⟩

/-! ## how a build comes out -/

theorem isPast_stays {g : Genesis} (h : E.proc? t i = some (.genesis g)) (hg : g.isPast = true)
    (htu : t ≤ u) : ∃ g', E.proc? u i = some (.genesis g') ∧ g'.isPast = true := by
  induction u, htu using Nat.le_induction with
  | base => exact ⟨g, h, hg⟩
  | succ u _ ih =>
    obtain ⟨g', hg', hpast⟩ := ih
    obtain h' | ⟨fired, answer, q, hm⟩ := Execution.proc_succ hg'
    · exact ⟨g', h', hpast⟩
    · obtain ⟨g'', hq⟩ := hm.work.genesis
      exact ⟨g'', hq ▸ hm.self_succ, hm.work.isPast hpast hq⟩

theorem BuildFailed.not_built (h : E.BuildFailed t) : ¬ E.Built u := by
  rintro ⟨v, i, g, _, hi, hg⟩
  obtain ⟨w, j, e, _, hj⟩ := h
  obtain hvw | hwv := Nat.le_total v w
  · obtain ⟨g', hg', hpast⟩ := isPast_stays hi (Genesis.isPast_of_configuration? hg) hvw
    obtain rfl := one_builder hg' hj rfl rfl
    cases hg'.symm.trans hj
    cases hpast
  · have hopen : g.isOpen = true := by
      cases g with
      | confirming | ended => cases hg
      | _ => rfl
    obtain hstill | hslot := resolving_stays hj hwv
    · obtain rfl := one_builder hi hstill rfl rfl
      cases hi.symm.trans hstill
      cases hg
    · cases (slot_of_isOpen hi hopen).symm.trans hslot

/-! ## where evaluators come from -/

section
variable (hmark : E.Avoids .markInitialized)
include hmark

/-- **Who goes on building an evaluator** is the build with its configuration, or a reset. -/
theorem origin_of_rebuild {w : Work} {b : Rebuild} (h : E.proc? t i = some w)
    (hw : w.rebuild? = some b) (hb : b ≠ .reading) : E.Built t ∨ E.ResetEarly t := by
  induction t generalizing w b with
  | zero => cases h
  | succ t ih =>
    have hle := Nat.le_succ t
    have hkeep (h : E.Built t ∨ E.ResetEarly t) : E.Built (t + 1) ∨ E.ResetEarly (t + 1) :=
      h.imp (·.mono hle) (·.mono hle)
    obtain h' | ⟨w₀, fired, answer, q, hm, rfl⟩ | ⟨_, k, hk, rfl⟩ |
      ⟨j, w₀, fired, answer, q, hm, hx, _⟩ := proc_of_succ h
    · exact hkeep (ih h' hw hb)
    · obtain rfl | ⟨b₀, p, hb₀, hmove, hp⟩ := hm.work.rebuild hw
      · exact absurd rfl hb
      · cases hmove with
        | @ask r hr =>
          -- only a reset or the build itself can have begun here
          unfold Work.rebuild? at hb₀
          split at hb₀ <;> cases hb₀
          · exact .inl ⟨t, i, _, hle, hm.proc, rfl⟩
          · by_cases hbuilt : E.Built t
            · exact .inl (hbuilt.mono hle)
            · exact .inr ⟨t, i, r, fired, answer, q, Nat.lt_succ_self t, hm, hr, hbuilt⟩
          · exact absurd rfl (hmark.operation hm.proc)
        | told => exact hkeep (ih hm.proc hb₀ nofun)
        | missing | panicked | store => cases hp
    · cases hk <;> cases hw <;> exact absurd rfl hb
    · obtain hx | ⟨n, hx⟩ := (Work.of_next hm.leads).2.spawned _ hx <;> subst hx <;> cases hw

/-- **An evaluator is published only when the build has its configuration, or by an early
reset.** -/
theorem origin_of_evaluator (h : (E.cells t).evaluator.isSome = true) :
    E.Built t ∨ E.ResetEarly t := by
  induction t with
  | zero =>
    obtain ⟨settings, generation, hcells⟩ := cells_zero (E := E)
    rw [hcells] at h
    cases h
  | succ t ih =>
    have hle := Nat.le_succ t
    refine Or.imp (·.mono hle) (·.mono hle) (?_ : E.Built t ∨ E.ResetEarly t)
    obtain hsame | ⟨i, w, fired, answer, q, hm⟩ := cells_succ (E := E) t
    · exact ih (hsame ▸ h)
    · rw [hm.cells_succ] at h
      obtain hsame | ⟨e, hw, _⟩ := (Work.of_next hm.leads).1.evaluator
      · exact ih (hsame ▸ h)
      · unfold Work.installs? at hw
        split at hw
        · next hb => exact origin_of_rebuild hmark hm.proc hb nofun
        · cases hw

end

/-! ## lookups -/

/-- **A lookup replies with its first move,** and rejects exactly if there is no evaluator. -/
theorem lookup_replies {k : CycleCall} (hk : k.operation.isLookup = true) (c : Cycle)
    (fired : Bool) (answer : Answering) :
    ∃ q r, (Work.next fired c (.call k)).under answer = some q ∧ q.self = .ended r ∧
      (r = .failed .notInitialized ↔ c.evaluator = none) := by
  cases k with
  | requiring file =>
    cases he : c.evaluator with
    | none => exact ⟨_, _, by simp only [Work.next, CycleCall.next, he]; rfl, rfl, by simp⟩
    | some e =>
      refine ⟨_, _, by simp only [Work.next, CycleCall.next, he]; rfl, rfl, ?_⟩
      cases (e.requiredIndexes file).outcome <;> simp
  | viewing fileType =>
    cases he : c.evaluator with
    | none => exact ⟨_, _, by simp only [Work.next, CycleCall.next, he]; rfl, rfl, by simp⟩
    | some e => exact ⟨_, _, by simp only [Work.next, CycleCall.next, he]; rfl, rfl, by simp⟩
  | _ => cases hk

/-- **Lookups follow the evaluator.**  However the build of a cycle, resets of the hints and lookups
are interleaved, as long as no caller marks the cycle initialized: a lookup replies with its first
move, and it is rejected exactly if no evaluator is published then.  So a lookup that is not
rejected moved after the build had made its configuration, or after a reset that found the published
registry before that; and if the build fails at any time, then only after such a reset. -/
theorem lookups_follow_evaluator (hmark : E.Avoids .markInitialized) {k : CycleCall}
    (he : E.Enters t j (.call k)) (hk : k.operation.isLookup = true) :
    (∀ m fired answer, ∃ q r, (Work.next fired (E.cells m) (.call k)).under answer = some q ∧
      q.self = .ended r) ∧
    ∀ v r, E.proc? v j = some (.ended r) →
      ∃ m, t < m ∧ m < v ∧ (r = .failed .notInitialized ↔ (E.cells m).evaluator = none) ∧
        (r ≠ .failed .notInitialized → E.Built m ∨ E.ResetEarly m) ∧
        ∀ u, E.BuildFailed u → r ≠ .failed .notInitialized → E.ResetEarly m := by
  refine ⟨fun m fired answer => ?_, fun v r hr => ?_⟩
  · obtain ⟨q, r, hnext, hq, _⟩ := lookup_replies hk (E.cells m) fired answer
    exact ⟨q, r, hnext, hq⟩
  · obtain ⟨m, k', fired, answer, q, htm, hmv, hm, hq, ho⟩ := he.exists_move hr
    obtain ⟨q', r', hnext, hq', hiff⟩ :=
      lookup_replies (k := k') (by rw [ho]; exact hk) (E.cells m) fired answer
    cases hnext.symm.trans hm.leads
    cases hq.symm.trans hq'
    have horigin (hne : r ≠ .failed .notInitialized) : E.Built m ∨ E.ResetEarly m := by
      refine origin_of_evaluator hmark (Option.isSome_iff_ne_none.mpr fun hnone => ?_)
      exact hne (hiff.mpr hnone)
    exact ⟨m, htm, hmv, hiff, horigin, fun u hu hne => (horigin hne).resolve_left hu.not_built⟩

def withoutIndexes : Answering
  | .openIndex _ => .returned (.error ⟨"disk full"⟩)
  | r => Answering.granting [words] r

/-- storage is about to refuse the one index of a cycle; a lookup comes before a caller resets the
hints, another after that, and a third one once the build has failed -/
def hinted : Builds :=
  .ofScript withoutIndexes
    [(.submitting .claiming, ([0, 0, 0] ++ List.replicate 6 1).map (·, false)),
      (.viewing ⟨"text"⟩, [(2, false)]),
      (.resettingHints .reading, [(3, false), (3, false), (3, false)]),
      (.viewing ⟨"text"⟩, [(4, false)]),
      (.requiring (.regular "a.txt" ⟨"text"⟩ 3), [(1, false), (1, false), (5, false)])]
    ⟨.submit, .view _, .resetHints, .view _, .require _⟩

theorem hinted_failed : hinted.BuildFailed 20 :=
  ⟨20, 1, .storage words.id ⟨"disk full"⟩, Nat.le_refl 20, rfl⟩

theorem hinted_found :
    ∃ r, hinted.proc? 22 5 = some (.ended r) ∧ r.isFound = true := by
  have hfound : ((hinted.proc? 22 5).bind Work.reply?).any Reply.isFound = true := by
    decide +kernel
  exact exists_reply hfound

/-- the first lookup is rejected, the others are answered only because of the reset -/
theorem lookups_follow_evaluator_hinted :
    hinted.Avoids .markInitialized ∧
    (hinted.proc? 12 2 = some (.ended (.failed .notInitialized)) ∧
      ∃ m, m < 12 ∧ (hinted.cells m).evaluator = none) ∧
    hinted.BuildFailed 20 ∧
    ∃ r m, hinted.proc? 22 5 = some (.ended r) ∧ r.isFound = true ∧ 18 < m ∧ m < 22 ∧
      hinted.ResetEarly m := by
  have hmark : hinted.Avoids .markInitialized := ofScript_avoids (by decide)
  have hrejected : hinted.proc? 12 2 = some (.ended (.failed .notInitialized)) := rfl
  obtain ⟨m₁, _, hm₁, hnone, _⟩ := (lookups_follow_evaluator (t := 10) (k := .viewing ⟨"text"⟩)
    hmark ⟨rfl, rfl⟩ rfl).2 12 _ hrejected
  obtain ⟨r, hr, hfound⟩ := hinted_found
  obtain ⟨m, hm, hm', _, _, hreset⟩ := (lookups_follow_evaluator (t := 18)
    (k := .requiring (.regular "a.txt" ⟨"text"⟩ 3)) hmark ⟨rfl, rfl⟩ rfl).2 22 r hr
  exact ⟨hmark, ⟨hrejected, m₁, hm₁, hnone.mp rfl⟩, hinted_failed, r, m, hr, hfound, hm, hm',
    hreset 20 hinted_failed (Reply.ne_of_isFound hfound)⟩

/-- a lookup is answered although the build has no configuration and never will -/
theorem not_rejected_until_built :
    ¬ ∀ (E : Builds), E.Avoids .markInitialized → ∀ t j k, E.Enters t j (.call k) →
      k.operation.isLookup = true → ∀ v r, E.proc? v j = some (.ended r) → r.isFound = true →
        E.Built v := by
  intro h
  have hmark : hinted.Avoids .markInitialized := ofScript_avoids (by decide)
  obtain ⟨r, hr, hfound⟩ := hinted_found
  exact hinted_failed.not_built
    (h hinted hmark 18 5 (.requiring (.regular "a.txt" ⟨"text"⟩ 3)) ⟨rfl, rfl⟩ rfl 22 r hr hfound)

end Execution

end IndexCoordinator
