import IndexCoordinator.Cycle.Genesis
import Mathlib.Data.List.Nodup

/-!
# What is registered

A registry that was made by registering descriptors holds every id once, and knows where each one
stands.

* `Registry.Indexed`            the positions are those of the descriptors;
* `Genesis.indexed_register`    the registry of a listing is indexed;
* `Registry.Indexed.lookup_versions`   a table of versions in order of registration answers what
                                the descriptors say;
* `Genesis.tasked_register`     the update tasks are those of the descriptors that read content.
-/

namespace IndexCoordinator

namespace Registry

/-- no id is registered twice, and the positions are those of the descriptors -/
structure Indexed (r : Registry) : Prop where
  nodup : r.ids.Nodup
  position : ∀ id p, r.position? id = some p ↔ r.ids[p]? = some id

variable {r : Registry}

theorem indexed_empty : Indexed {} where
  nodup := List.nodup_nil
  position id p := by simp [position?, ids]

theorem Indexed.contains_iff (h : r.Indexed) (id : IndexId) : r.contains id = true ↔ id ∈ r.ids := by
  rw [contains, Option.isSome_iff_exists, List.mem_iff_getElem?]
  exact exists_congr fun p => h.position id p

theorem Indexed.add (h : r.Indexed) {d : IndexDescriptor} (hd : r.contains d.id = false) :
    (r.add d).Indexed := by
  have hnew : d.id ∉ r.ids := by
    rw [← h.contains_iff, hd]
    exact Bool.false_ne_true
  have hlen : r.descriptors.length = r.ids.length := (List.length_map _).symm
  refine ⟨?_, fun id p => ?_⟩
  · rw [ids_add]
    exact List.nodup_append_comm.mp (List.nodup_cons.mpr ⟨hnew, h.nodup⟩)
  · rw [position?_add, ids_add, hlen]
    by_cases hid : id = d.id
    · subst hid
      rw [if_pos rfl, Option.some.injEq]
      constructor
      · rintro rfl
        exact List.getElem?_concat_length
      · intro hp
        by_contra hne
        have hin : r.ids[p]? = some d.id := by
          obtain ⟨hlt, _⟩ := List.getElem?_eq_some_iff.mp hp
          rw [List.length_append, List.length_singleton] at hlt
          rwa [List.getElem?_append_left (by omega)] at hp
        exact hnew (List.mem_of_getElem? hin)
    · rw [if_neg hid, h.position]
      constructor
      · intro hp
        rwa [List.getElem?_append_left (List.getElem?_eq_some_iff.mp hp).1]
      · intro hp
        by_cases hlt : p < r.ids.length
        · rwa [List.getElem?_append_left hlt] at hp
        · rw [List.getElem?_append_right (Nat.le_of_not_lt hlt)] at hp
          exact absurd (List.mem_singleton.mp (List.mem_of_getElem? hp)) hid

theorem Indexed.descriptor?_of_mem (h : r.Indexed) {d : IndexDescriptor} (hd : d ∈ r.descriptors) :
    r.descriptor? d.id = some d := by
  obtain ⟨p, hp⟩ := List.mem_iff_getElem?.mp hd
  have hid : r.ids[p]? = some d.id := by rw [ids, List.getElem?_map, hp]; rfl
  rw [descriptor?, (h.position d.id p).mpr hid]
  exact hp

theorem Indexed.descriptor?_of_not_mem (h : r.Indexed) {id : IndexId} (hid : id ∉ r.ids) :
    r.descriptor? id = none := by
  rw [← h.contains_iff, contains, Option.not_isSome_iff_eq_none] at hid
  rw [descriptor?, hid]
  rfl

theorem Indexed.lookup_versions (h : r.Indexed) (id : IndexId) :
    (r.descriptors.map fun d => (d.id, d.version)).lookup id
      = (r.descriptor? id).map (·.version) := by
  let version (id : IndexId) : UInt32 := ((r.descriptor? id).map (·.version)).getD 0
  have hgraph : (r.descriptors.map fun d => (d.id, d.version))
      = r.ids.map fun id => (id, version id) := by
    rw [ids, List.map_map]
    refine List.map_congr_left fun d hd => ?_
    simp [version, h.descriptor?_of_mem hd]
  rw [hgraph]
  by_cases hid : id ∈ r.ids
  · obtain ⟨d, hd, rfl⟩ := List.mem_map.mp hid
    rw [List.lookup_graph version hid]
    simp [version, h.descriptor?_of_mem hd]
  · rw [h.descriptor?_of_not_mem hid]
    refine List.lookup_eq_none_iff.mpr fun e he => ?_
    obtain ⟨id', hid', rfl⟩ := List.mem_map.mp he
    exact bne_iff_ne.mpr fun heq => hid (heq ▸ hid')

/-- the update tasks are those of the descriptors that read content -/
def Tasked (r : Registry) : Prop :=
  ∀ id task, r.updateTask? id = some task ↔
    task = ⟨id⟩ ∧ ∃ d ∈ r.descriptors, d.contentDependent = true ∧ d.id = id

theorem tasked_empty : Tasked {} := fun id task => by simp [updateTask?]

theorem Tasked.add (h : r.Tasked) (d : IndexDescriptor) : (r.add d).Tasked := by
  intro id task
  have hmem : (∃ x ∈ (r.add d).descriptors, x.contentDependent = true ∧ x.id = id) ↔
      (∃ x ∈ r.descriptors, x.contentDependent = true ∧ x.id = id) ∨
        d.contentDependent = true ∧ d.id = id := by
    simp [Registry.add, or_and_right, exists_or]
  rw [hmem]
  by_cases hc : d.contentDependent = true
  · by_cases hid : d.id = id
    · subst hid
      have hnew : (r.add d).updateTask? d.id = some ⟨d.id⟩ := by simp [updateTask?, Registry.add, hc]
      rw [hnew, Option.some.injEq, eq_comm]
      exact (and_iff_left (.inr ⟨hc, rfl⟩)).symm
    · have hne : (id == d.id) = false := by simpa using fun he : id = d.id => hid he.symm
      have hsame : (r.add d).updateTask? id = r.updateTask? id := by
        simp [updateTask?, Registry.add, hc, List.lookup_cons, hne]
      rw [hsame, h id task, or_iff_left fun hd => hid hd.2]
  · have hsame : (r.add d).updateTask? id = r.updateTask? id := by
      simp [updateTask?, Registry.add, hc]
    rw [hsame, h id task, or_iff_left fun hd => hc hd.1]

end Registry

namespace RegistryBuilder

variable {b b' : RegistryBuilder}

variable {P : Registry → Prop}

theorem register_keeps (hadd : ∀ r d, P r → r.contains d.id = false → P (r.add d))
    (h : P b.registry) {d : IndexDescriptor} (hb : b.register d = .ok b') : P b'.registry := by
  unfold register at hb
  split at hb
  · cases hb
    exact h
  · split at hb
    · cases hb
    · next hd =>
      cases hb
      exact hadd _ d h (Bool.not_eq_true _ ▸ hd)

theorem registerAll_keeps (hadd : ∀ r d, P r → r.contains d.id = false → P (r.add d))
    (h : P b.registry) {descriptors : List IndexDescriptor}
    (hb : b.registerAll descriptors = .ok b') : P b'.registry := by
  induction descriptors generalizing b with
  | nil =>
    cases hb
    exact h
  | cons d rest ih =>
    unfold registerAll at hb
    cases hd : b.register d with
    | error e =>
      rw [hd] at hb
      cases hb
    | ok b₁ =>
      rw [hd] at hb
      exact ih (register_keeps hadd h hd) hb

end RegistryBuilder

namespace Genesis

variable {settings : IndexingSettings} {descriptors : List IndexDescriptor} {r : Registry}

/-- what an empty registry has and every new descriptor keeps, the registry of a listing has -/
theorem register_has {P : Registry → Prop} (hempty : P {})
    (hadd : ∀ r d, P r → r.contains d.id = false → P (r.add d))
    (h : register settings descriptors = .ok r) : P r := by
  unfold register at h
  split at h
  · next b hb =>
    cases h
    exact RegistryBuilder.registerAll_keeps hadd hempty hb
  · cases h

/-- **The registry of a listing is indexed.** -/
theorem indexed_register (h : register settings descriptors = .ok r) : r.Indexed :=
  register_has Registry.indexed_empty (fun _ _ h hd => h.add hd) h

/-- **The update tasks of a listing are those of the descriptors that read content.** -/
theorem tasked_register (h : register settings descriptors = .ok r) : r.Tasked :=
  register_has Registry.tasked_empty (fun _ d h _ => h.add d) h

end Genesis

end IndexCoordinator
