import IndexCoordinator.Update
import Mathlib.Data.List.Nodup

/-!
# The map of documents in flight

Facts about the map when no document stands in it twice, and about a look at busy documents.

* `InFlight.Single`         no document has two entries;
* `UnsavedDocument.entry`   the entry under which a document is in flight;
* `InFlight.erase_perm`     the entry of a document is taken out and no other;
* `Batch.sweep_perm`        a look adds the entries of what it claims;
* `Batch.fate_of_mem`       what becomes of a busy document: it is claimed, it is left out because
                            it is covered, or it stays busy with a stamp that is in flight.
-/

namespace IndexCoordinator

def UnsavedDocument.entry (d : UnsavedDocument) : DocumentId × Stamp := (d.id, d.stamp)

namespace InFlight

def Single (m : InFlight) : Prop := (m.map Prod.fst).Nodup

theorem single_nil : Single [] := List.nodup_nil

theorem Single.perm {m m' : InFlight} (h : m.Single) (hp : m.Perm m') : m'.Single :=
  (hp.map Prod.fst).nodup_iff.mp h

theorem stamp?_eq_none {m : InFlight} {d : DocumentId} :
    m.stamp? d = none ↔ ∀ e ∈ m, e.1 ≠ d := by
  unfold stamp?
  rw [List.lookup_eq_none_iff]
  constructor
  · intro h e he heq
    have := h e he
    simp [heq] at this
  · intro h e he
    have := h e he
    simpa using fun heq : d = e.1 => this heq.symm

theorem mem_of_stamp? {m : InFlight} {d : DocumentId} {s : Stamp} (h : m.stamp? d = some s) :
    (d, s) ∈ m := by
  unfold stamp? at h
  obtain ⟨l₁, l₂, rfl, _⟩ := List.lookup_eq_some_iff.mp h
  simp

theorem insert_of_free {m : InFlight} {d : DocumentId} (h : m.stamp? d = none) (s : Stamp) :
    m.insert d s = (d, s) :: m := by
  unfold insert
  rw [List.filter_eq_self.mpr]
  intro e he
  simpa using stamp?_eq_none.mp h e he

theorem Single.insert {m : InFlight} (hm : m.Single) {d : DocumentId} (h : m.stamp? d = none)
    (s : Stamp) : (m.insert d s).Single := by
  rw [insert_of_free h]
  refine List.nodup_cons.mpr ⟨fun hd => ?_, hm⟩
  obtain ⟨e, he, heq⟩ := List.mem_map.mp hd
  exact stamp?_eq_none.mp h e he heq

theorem Single.erase {m : InFlight} (hm : m.Single) (d : DocumentId) : (m.erase d).Single :=
  hm.sublist (List.filter_sublist.map _)

theorem erase_perm {m L : InFlight} {e : DocumentId × Stamp} (hm : m.Single)
    (h : m.Perm (e :: L)) : (m.erase e.1).Perm L := by
  have hL : ((e :: L).map Prod.fst).Nodup := hm.perm h
  rw [List.map_cons, List.nodup_cons] at hL
  have hself : L.filter (fun x => !(x.1 == e.1)) = L := by
    rw [List.filter_eq_self]
    intro x hx
    have hne : x.1 ≠ e.1 := fun heq => hL.1 (heq ▸ List.mem_map_of_mem hx)
    simpa using hne
  have hf := h.filter (fun x => !(x.1 == e.1))
  rw [List.filter_cons_of_neg (by simp), hself] at hf
  exact hf

end InFlight

namespace Batch

/-! ## what a look does -/

section
variable (m : InFlight) (e : BusyEntry) (rest : List BusyEntry)

theorem sweep_cons_busy {s : Stamp} (h : m.stamp? e.document.id = some s) :
    sweep m (e :: rest) =
      ((sweep m rest).1, { e with covered := max e.covered s } :: (sweep m rest).2.1,
        (sweep m rest).2.2) := by
  rw [sweep, h]

theorem sweep_cons_claimed (h : m.stamp? e.document.id = none)
    (hc : e.covered < e.document.stamp) :
    sweep m (e :: rest) =
      ((sweep (m.insert e.document.id e.document.stamp) rest).1,
        (sweep (m.insert e.document.id e.document.stamp) rest).2.1,
        e.document :: (sweep (m.insert e.document.id e.document.stamp) rest).2.2) := by
  rw [sweep, h]
  simp only [if_pos hc]

theorem sweep_cons_covered (h : m.stamp? e.document.id = none)
    (hc : ¬ e.covered < e.document.stamp) : sweep m (e :: rest) = sweep m rest := by
  rw [sweep, h]
  simp only [if_neg hc]

end

theorem sweep_perm (m : InFlight) (es : List BusyEntry) :
    (sweep m es).1.Perm ((sweep m es).2.2.map UnsavedDocument.entry ++ m) := by
  induction m, es using sweep.induct with
  | case1 m => exact List.Perm.refl _
  | case2 m e rest s hs ih =>
    rw [sweep_cons_busy m e rest hs]
    exact ih
  | case3 m e rest hs hc ih =>
    rw [sweep_cons_claimed m e rest hs hc]
    rw [InFlight.insert_of_free hs] at ih ⊢
    exact ih.trans List.perm_middle
  | case4 m e rest hs hc ih =>
    rw [sweep_cons_covered m e rest hs hc]
    exact ih

theorem single_sweep {m : InFlight} (hm : m.Single) (es : List BusyEntry) :
    (sweep m es).1.Single := by
  induction m, es using sweep.induct with
  | case1 m => exact hm
  | case2 m e rest s hs ih =>
    rw [sweep_cons_busy m e rest hs]
    exact ih hm
  | case3 m e rest hs hc ih =>
    rw [sweep_cons_claimed m e rest hs hc]
    exact ih (hm.insert hs _)
  | case4 m e rest hs hc ih =>
    rw [sweep_cons_covered m e rest hs hc]
    exact ih hm

theorem sweep_of_none_claimed {m : InFlight} {es : List BusyEntry} (h : (sweep m es).2.2 = []) :
    (sweep m es).1 = m := by
  induction m, es using sweep.induct with
  | case1 m => rfl
  | case2 m e rest s hs ih =>
    rw [sweep_cons_busy m e rest hs] at h ⊢
    exact ih h
  | case3 m e rest hs hc _ =>
    rw [sweep_cons_claimed m e rest hs hc] at h
    cases h
  | case4 m e rest hs hc ih =>
    rw [sweep_cons_covered m e rest hs hc] at h ⊢
    exact ih h

theorem mem_sweep {m : InFlight} {x : DocumentId × Stamp} (h : x ∈ m) (es : List BusyEntry) :
    x ∈ (sweep m es).1 :=
  (sweep_perm m es).mem_iff.mpr (List.mem_append_right _ h)

theorem stamp?_eq_none_of_insert {m : InFlight} {d d' : DocumentId} {s : Stamp}
    (h : (m.insert d s).stamp? d' = none) (hd : m.stamp? d = none) : m.stamp? d' = none := by
  rw [InFlight.insert_of_free hd] at h
  exact InFlight.stamp?_eq_none.mpr fun e he =>
    InFlight.stamp?_eq_none.mp h e (List.mem_cons_of_mem _ he)

/-- what a look makes of a busy entry -/
inductive Fate (m : InFlight) (es : List BusyEntry) (e : BusyEntry) : Prop where
  | claimed : e.document ∈ (sweep m es).2.2 → Fate m es e
  | covered : m.stamp? e.document.id = none → e.document.stamp ≤ e.covered → Fate m es e
  | busy (s : Stamp) : (e.document.id, s) ∈ (sweep m es).1 →
      { e with covered := max e.covered s } ∈ (sweep m es).2.1 → Fate m es e

theorem fate_of_mem (m : InFlight) (es : List BusyEntry) {e : BusyEntry} (he : e ∈ es) :
    Fate m es e := by
  induction m, es using sweep.induct with
  | case1 m => cases he
  | case2 m x rest s hs ih =>
    have hsw := sweep_cons_busy m x rest hs
    obtain rfl | he := List.mem_cons.mp he
    · have hbusy := mem_sweep (InFlight.mem_of_stamp? hs) (e :: rest)
      exact .busy s hbusy (by rw [hsw]; exact List.mem_cons_self)
    · cases ih he with
      | claimed h => exact .claimed (by rw [hsw]; exact h)
      | covered h1 h2 => exact .covered h1 h2
      | busy s' h1 h2 =>
        exact .busy s' (by rw [hsw]; exact h1) (by rw [hsw]; exact List.mem_cons_of_mem _ h2)
  | case3 m x rest hs hc ih =>
    have hsw := sweep_cons_claimed m x rest hs hc
    obtain rfl | he := List.mem_cons.mp he
    · exact .claimed (by rw [hsw]; exact List.mem_cons_self)
    · cases ih he with
      | claimed h => exact .claimed (by rw [hsw]; exact List.mem_cons_of_mem _ h)
      | covered h1 h2 => exact .covered (stamp?_eq_none_of_insert h1 hs) h2
      | busy s' h1 h2 => exact .busy s' (by rw [hsw]; exact h1) (by rw [hsw]; exact h2)
  | case4 m x rest hs hc ih =>
    have hsw := sweep_cons_covered m x rest hs hc
    obtain rfl | he := List.mem_cons.mp he
    · exact .covered hs (Nat.le_of_not_lt hc)
    · cases ih he with
      | claimed h => exact .claimed (by rw [hsw]; exact h)
      | covered h1 h2 => exact .covered h1 h2
      | busy s' h1 h2 => exact .busy s' (by rw [hsw]; exact h1) (by rw [hsw]; exact h2)

theorem exists_of_mem_busy {m : InFlight} {es : List BusyEntry} {e' : BusyEntry}
    (h : e' ∈ (sweep m es).2.1) :
    ∃ e ∈ es, ∃ s, (e.document.id, s) ∈ (sweep m es).1 ∧
      e' = { e with covered := max e.covered s } := by
  induction m, es using sweep.induct with
  | case1 m => cases h
  | case2 m x rest s hs ih =>
    rw [sweep_cons_busy m x rest hs] at h ⊢
    obtain rfl | h := List.mem_cons.mp h
    · exact ⟨x, List.mem_cons_self, s, mem_sweep (InFlight.mem_of_stamp? hs) _, rfl⟩
    · obtain ⟨e, he, hseen⟩ := ih h
      exact ⟨e, List.mem_cons_of_mem _ he, hseen⟩
  | case3 m x rest hs hc ih =>
    rw [sweep_cons_claimed m x rest hs hc] at h ⊢
    obtain ⟨e, he, hseen⟩ := ih h
    exact ⟨e, List.mem_cons_of_mem _ he, hseen⟩
  | case4 m x rest hs hc ih =>
    rw [sweep_cons_covered m x rest hs hc] at h ⊢
    obtain ⟨e, he, hseen⟩ := ih h
    exact ⟨e, List.mem_cons_of_mem _ he, hseen⟩

/-- what a look claims was busy and free, and no stamp seen for it was as new -/
theorem exists_of_mem_claimed {m : InFlight} {es : List BusyEntry} {d : UnsavedDocument}
    (h : d ∈ (sweep m es).2.2) :
    m.stamp? d.id = none ∧ ∃ e ∈ es, e.document = d ∧ e.covered < d.stamp := by
  induction m, es using sweep.induct with
  | case1 m => cases h
  | case2 m x rest s hs ih =>
    rw [sweep_cons_busy m x rest hs] at h
    obtain ⟨hfree, e, he, hd⟩ := ih h
    exact ⟨hfree, e, List.mem_cons_of_mem _ he, hd⟩
  | case3 m x rest hs hc ih =>
    rw [sweep_cons_claimed m x rest hs hc] at h
    obtain rfl | h := List.mem_cons.mp h
    · exact ⟨hs, x, List.mem_cons_self, rfl, hc⟩
    · obtain ⟨hfree, e, he, hd⟩ := ih h
      exact ⟨stamp?_eq_none_of_insert hfree hs, e, List.mem_cons_of_mem _ he, hd⟩
  | case4 m x rest hs hc ih =>
    rw [sweep_cons_covered m x rest hs hc] at h
    obtain ⟨hfree, e, he, hd⟩ := ih h
    exact ⟨hfree, e, List.mem_cons_of_mem _ he, hd⟩

theorem stamp_le_of_mem_busy {m : InFlight} {es : List BusyEntry} {e : BusyEntry} {s : Stamp}
    (h : e ∈ (sweep m es).2.1) (hm : m.Single) (hs : (e.document.id, s) ∈ m) : s ≤ e.covered := by
  obtain ⟨e', _, s', hs', rfl⟩ := exists_of_mem_busy h
  have heq := List.inj_on_of_nodup_map (single_sweep hm es) (mem_sweep hs es) hs' rfl
  cases heq
  exact Nat.le_max_right _ _

end Batch

end IndexCoordinator
