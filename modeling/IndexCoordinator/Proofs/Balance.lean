import IndexCoordinator.Proofs.Execution

/-!
# Balances

Something that is done once in a run is done by the one process that has the right to do it.  The
right is kept by the cells until a process takes it; so what was done, the processes with the right
and the right in the cells add up to the same number in every reachable run.

* `Run.Reachable.balance`    the sum stays what it was;
* `Run.Reachable.countP_le`  what happens so happens at most as often as there are rights;
* `unique_of_countP_le`      who counts at most once is at one place.
-/

namespace IndexCoordinator

namespace Run

variable {σ π : Type} {next : Program σ π} {starts : σ → π → Prop} {initial : σ → Prop}
  {happened : Event → Bool} {mayDo : π → Bool} {kept : σ → Nat} {n : Nat}

/-- no move changes the sum of what happened and what may still happen -/
def Balanced (next : Program σ π) (happened : Event → Bool) (mayDo : π → Bool)
    (kept : σ → Nat) : Prop :=
  ∀ fired answer s p q, (next fired s p).under answer = some q →
    q.events.countP happened + (q.self :: q.spawned).countP mayDo + kept q.shared
      = [p].countP mayDo + kept s

/-- **The sum of what happened and what may still happen stays the same.** -/
theorem Reachable.balance {r : Run σ π} (h : Reachable next starts initial r)
    (hstart : ∀ s, initial s → kept s = n) (henter : ∀ s p, starts s p → mayDo p = false)
    (hmove : Balanced next happened mayDo kept) :
    r.trace.countP happened + r.procs.countP mayDo + kept r.shared = n := by
  refine h.invariant (I := fun r => r.trace.countP happened + r.procs.countP mayDo +
    kept r.shared = n) (fun s hs => ?_) (fun r p hr hp => ?_) (fun r r' hr hst => ?_)
  · simpa using hstart s hs
  · rw [procs_invoke, List.countP_append, shared_invoke]
    have hnone : [p].countP mayDo = 0 := by simp [henter _ p hp]
    rw [hnone]
    exact hr
  · obtain ⟨i, p, fired, answer, q, hp, hq, rfl⟩ := hst.exists_under
    obtain ⟨others, hperm, hperm'⟩ := exists_others hp
    have hq' := hmove fired answer _ p q hq
    have hbefore : r.procs.countP mayDo = _ := hperm.countP_eq _
    have hafter : (r.commit i q).procs.countP mayDo = _ := (hperm' q).countP_eq _
    rw [hbefore, List.countP_cons] at hr
    rw [hafter, List.countP_cons, List.countP_append, trace_commit, List.countP_append,
      shared_commit]
    simp only [List.countP_cons, List.countP_nil] at hq'
    omega

theorem Reachable.countP_le {r : Run σ π} (h : Reachable next starts initial r)
    (hstart : ∀ s, initial s → kept s = n) (henter : ∀ s p, starts s p → mayDo p = false)
    (hmove : Balanced next happened mayDo kept) : r.trace.countP happened ≤ n := by
  have hsum := h.balance hstart henter hmove
  omega

end Run

theorem two_le_countP {α : Type} {l : List α} {p : α → Bool} {i j : Nat} {a b : α} (hij : i < j)
    (hi : l[i]? = some a) (hj : l[j]? = some b) (ha : p a = true) (hb : p b = true) :
    2 ≤ l.countP p := by
  have hleft : a ∈ l.take j := List.mem_of_getElem? (by rw [List.getElem?_take_of_lt hij]; exact hi)
  have hright : b ∈ l.drop j := List.mem_of_getElem? (i := 0) (by rw [List.getElem?_drop]; exact hj)
  have h1 : 0 < (l.take j).countP p := List.countP_pos_iff.mpr ⟨a, hleft, ha⟩
  have h2 : 0 < (l.drop j).countP p := List.countP_pos_iff.mpr ⟨b, hright, hb⟩
  have happ : l.countP p = (l.take j).countP p + (l.drop j).countP p := by
    rw [← List.countP_append, List.take_append_drop]
  omega

theorem unique_of_countP_le {α : Type} {l : List α} {p : α → Bool} {i j : Nat} {a b : α}
    (h : l.countP p ≤ 1) (hi : l[i]? = some a) (hj : l[j]? = some b) (ha : p a = true)
    (hb : p b = true) : i = j := by
  by_contra hne
  obtain hlt | hlt := Nat.lt_or_gt_of_ne hne
  · have h2 := two_le_countP hlt hi hj ha hb
    omega
  · have h2 := two_le_countP hlt hj hi hb ha
    omega

end IndexCoordinator
