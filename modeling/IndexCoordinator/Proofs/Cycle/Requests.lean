import IndexCoordinator.Proofs.Cycle.Builder
import IndexCoordinator.Proofs.Update.Moves

/-!
# Which collaborators are asked

Every call of a collaborator has its place in the work on a cycle.

* `Work.Asks`, `Work.Moves.asks`   who calls what;
* `Execution.countP_listings`      the extension host is asked for its descriptors at most once.
-/

namespace IndexCoordinator

def Event.isListing : Event → Bool
  | .entered .listDescriptors => true
  | _ => false

theorem Batch.Moves.asks {fired : Bool} {answer : Answering} {m m' : InFlight} {b b' : Batch}
    {events : List Event} (h : Batch.Moves fired answer m b m' b' events) {r : Request}
    (hr : .entered r ∈ events) : ∃ d, r = .indexUnsaved b.index d := by
  cases h with
  | enter =>
    cases List.mem_singleton.mp hr
    exact ⟨_, rfl⟩
  | leaveLast | leave | panic => cases List.mem_singleton.mp hr
  | _ => cases hr

namespace Work

/-- a process calls a collaborator where it stands -/
inductive Asks : Work → Request → Prop where
  | list : Asks (.genesis .spawned) .listDescriptors
  | openIndex (a : Assembly) (d : IndexDescriptor) : Asks (.genesis (.assembling a)) (.openIndex d)
  | fileTypes {w : Work} : w.rebuild? = some .reading → Asks w .registeredFileTypes
  | index (b : Batch) (success : Reply) (d : UnsavedDocument) :
      Asks (.call (.updating b success)) (.indexUnsaved b.index d)
  | delete (m : Maintenance) : Asks (.maintenance m) .deleteStaleIds
  | bringUpToDate (m : Maintenance) : Asks (.maintenance m) .bringUpToDate

def lists : Work → Bool
  | .genesis .spawned => true
  | .call (.submitting .advancing) => true
  | .call (.submitting .spawning) => true
  | _ => false

section
variable {w w' : Work} {c : Cycle} {fired : Bool} {answer : Answering} {q : Progress Cycle Work}

theorem asks_of_rebuild {b : Rebuild} {p : Rebuild.Part} (hw : w.rebuild? = some b)
    (h : Rebuild.Moves answer c b p) {r : Request} (hr : .entered r ∈ p.events) : w.Asks r := by
  cases h with
  | ask =>
    cases List.mem_singleton.mp hr
    exact .fileTypes hw
  | told | panicked => cases List.mem_singleton.mp hr
  | _ => cases hr

theorem asks_of_maintenance {m : Maintenance} {p : Progress Cycle Maintenance}
    (h : (m.next c).under answer = some p) {r : Request} (hr : .entered r ∈ p.events) :
    Asks (.maintenance m) r := by
  unfold Maintenance.next at h
  split at h
  · split at h <;> cases h <;> cases hr
  · split at h <;> cases h <;> cases hr
  · cases h
    cases List.mem_singleton.mp hr
    exact .delete m
  · cases h
    cases hans : answer .deleteStaleIds <;> rw [hans] at hr <;> cases List.mem_singleton.mp hr
  · cases h
    cases List.mem_singleton.mp hr
    exact .bringUpToDate m
  · cases h
    cases hans : answer .bringUpToDate <;> rw [hans] at hr <;> cases List.mem_singleton.mp hr
  · cases h
    cases hr
  · cases h

theorem Moves.asks (h : Moves fired answer c w q) {r : Request} (hr : .entered r ∈ q.events) :
    w.Asks r := by
  cases h with
  | list =>
    cases List.mem_singleton.mp hr
    exact .list
  | listed | opened => cases List.mem_singleton.mp hr
  | enterIndex =>
    cases List.mem_singleton.mp hr
    exact .openIndex _ _
  | mark hb | reset hb | remark hb => exact asks_of_rebuild rfl hb hr
  | maintain hp => exact asks_of_maintenance hp hr
  | @update b success p _ hp =>
    obtain ⟨d, rfl⟩ := (Batch.moves_of_next hp).1.asks hr
    exact .index b success d
  | require =>
    obtain ⟨_, _, h⟩ := List.mem_map.mp hr
    cases h
  | _ => cases hr

theorem Moves.ne_spawned (h : Moves fired answer c w q) : q.self ≠ .genesis .spawned := by
  cases h with
  | listed =>
    unfold Genesis.afterListing
    split
    · split <;> nofun
    · nofun
    · nofun
  | opened =>
    unfold Genesis.afterOpening
    split <;> nofun
  | mark hb => cases hb <;> nofun
  | @resolve o => cases o <;> nofun
  | reset hb | remark hb => cases hb <;> nofun
  | waited =>
    unfold CycleCall.afterWait
    split
    · nofun
    · split <;> nofun
    · nofun
  | _ => nofun

theorem lists_of_operation {k : CycleCall} (h : k.operation ≠ .submit) :
    (Work.call k).lists = false := by
  cases k with
  | submitting s => exact absurd rfl h
  | _ => rfl

theorem lists_of_genesis {g : Genesis} (h : Work.genesis g ≠ .genesis .spawned) :
    (Work.genesis g).lists = false := by
  cases g with
  | spawned => exact absurd rfl h
  | _ => rfl

theorem Onward.countP_lists {l : List Work} (h : Onward w w' l)
    (hw : w ≠ .call (.submitting .claiming)) (hs : w ≠ .genesis .spawned)
    (hs' : w' ≠ .genesis .spawned) : (w' :: l).countP lists = [w].countP lists := by
  cases h with
  | build g g' => simp [lists_of_genesis hs, lists_of_genesis hs']
  | go hk hk' => simp [lists_of_operation hk, lists_of_operation (hk'.trans_ne hk)]
  | stop r hk =>
    have hr : (ended r).lists = false := rfl
    simp [lists_of_operation hk, hr]
  | won | lost => exact absurd rfl hw
  | _ => rfl

/-- a claim of the submission is followed by one listing, and no other move is -/
theorem balanced_listings :
    Run.Balanced next Event.isListing lists Cycle.buildsLeft := by
  intro fired answer c w q h
  have hmoves := moves_of_next h
  by_cases hs : w = .genesis .spawned
  · subst hs
    cases hmoves
    rfl
  have hnone : q.events.countP Event.isListing = 0 := by
    refine List.countP_eq_zero.mpr fun e he hlist => ?_
    unfold Event.isListing at hlist
    split at hlist
    · cases hmoves.asks he with
      | list => exact hs rfl
    · cases hlist
  by_cases hw : w = .call (.submitting .claiming)
  · subst hw
    cases hb : c.buildSubmitted <;>
      simp only [next, CycleCall.next, Submission.next, hb] at h <;> cases h
    · simp [Cycle.buildsLeft, hb, lists]
    · simp [Cycle.buildsLeft, hb, lists]
  · obtain ⟨he, ho⟩ := of_next h
    rw [hnone, Nat.zero_add, ho.countP_lists hw hs hmoves.ne_spawned, Cycle.buildsLeft,
      Cycle.buildsLeft, he.buildSubmitted hw]

end

end Work

namespace Execution

variable {E : Builds}

/-- **The extension host is asked for its descriptors at most once.** -/
theorem countP_listings (t : Nat) : (E.run t).trace.countP Event.isListing ≤ 1 := by
  refine (E.reachable t).countP_le (fun c hc => ?_) (fun c w hw => ?_) Work.balanced_listings
  · obtain ⟨settings, generation, rfl⟩ := hc
    rfl
  · obtain ⟨k, hk, rfl⟩ := hw
    cases hk <;> rfl

end Execution

end IndexCoordinator
