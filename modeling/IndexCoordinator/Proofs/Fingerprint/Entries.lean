import IndexCoordinator.Proofs.Cycle.Resolution
import IndexCoordinator.Proofs.Id.Table
import IndexCoordinator.Proofs.Registry.History
import Mathlib.Data.String.Basic

/-!
# What a fingerprint depends on

A fingerprint is the hash of the names and versions of a configuration, put into order.  Ids of one
table have one number for each name, so the names of a configuration are distinct, and in order they
do not tell any more how they were registered or numbered.

* `Fingerprint.mergeSort_of_perm`             putting pairs into order forgets the order before;
* `IndexConfiguration.IsAssembled`            assembled from descriptors with ids of one table;
* `IndexConfiguration.isAssembled_of_build`   so are the configurations of cycles;
* `IndexConfiguration.Sound`                  what such a configuration consists of;
* `IndexConfiguration.fingerprint_of_pairs`   equal pairs have equal fingerprints.
-/

namespace IndexCoordinator

namespace Fingerprint

variable {l l' : List (String × UInt32)}

theorem entryLe_iff {a b : String × UInt32} :
    entryLe a b = true ↔ a.1 < b.1 ∨ a.1 = b.1 ∧ a.2 ≤ b.2 := by simp [entryLe]

theorem entryLe_trans (a b c : String × UInt32) (h : entryLe a b = true) (h' : entryLe b c = true) :
    entryLe a c = true := by
  rw [entryLe_iff] at h h' ⊢
  obtain hlt | ⟨heq, hle⟩ := h
  · obtain hlt' | ⟨heq', _⟩ := h'
    · exact .inl (String.lt_trans hlt hlt')
    · exact .inl (heq' ▸ hlt)
  · obtain hlt' | ⟨heq', hle'⟩ := h'
    · exact .inl (heq ▸ hlt')
    · exact .inr ⟨heq.trans heq', UInt32.le_trans hle hle'⟩

theorem entryLe_total (a b : String × UInt32) : (entryLe a b || entryLe b a) = true := by
  rw [Bool.or_eq_true, entryLe_iff, entryLe_iff]
  obtain hlt | heq | hlt := lt_trichotomy a.1 b.1
  · exact .inl (.inl hlt)
  · obtain hle | hle := UInt32.le_total a.2 b.2
    · exact .inl (.inr ⟨heq, hle⟩)
    · exact .inr (.inr ⟨heq.symm, hle⟩)
  · exact .inr (.inl hlt)

theorem entryLe_antisymm {a b : String × UInt32} (h : entryLe a b = true) (h' : entryLe b a = true) :
    a = b := by
  rw [entryLe_iff] at h h'
  obtain hlt | ⟨heq, hle⟩ := h
  · obtain hlt' | ⟨heq', _⟩ := h'
    · exact absurd (String.lt_trans hlt hlt') (String.lt_irrefl _)
    · exact absurd (heq' ▸ hlt) (String.lt_irrefl _)
  · obtain hlt' | ⟨_, hle'⟩ := h'
    · exact absurd (heq ▸ hlt') (String.lt_irrefl _)
    · exact Prod.ext heq (UInt32.le_antisymm hle hle')

theorem pairwise_sorted (l : List (String × UInt32)) :
    (l.mergeSort entryLe).Pairwise fun a b => entryLe a b = true :=
  List.pairwise_mergeSort entryLe_trans entryLe_total l

/-- **Putting pairs into order forgets the order in which they came.** -/
theorem mergeSort_of_perm (h : l.Perm l') : l.mergeSort entryLe = l'.mergeSort entryLe :=
  List.Perm.eq_of_pairwise (fun _ _ _ _ hab hba => entryLe_antisymm hab hba) (pairwise_sorted l)
    (pairwise_sorted l')
    (((List.mergeSort_perm l entryLe).trans h).trans (List.mergeSort_perm l' entryLe).symm)

def pairs (versions : List (IndexId × UInt32)) : List (String × UInt32) :=
  versions.map fun v => (v.1.name, v.2)

theorem ofVersions_of_perm {vs vs' : List (IndexId × UInt32)} (h : (pairs vs).Perm (pairs vs')) :
    ofVersions vs = ofVersions vs' := by
  show ofEntries ((pairs vs).mergeSort entryLe) = ofEntries ((pairs vs').mergeSort entryLe)
  rw [mergeSort_of_perm h]

end Fingerprint

namespace IndexConfiguration

variable {t : IdTable} {c : IndexConfiguration}

/-- a configuration that was assembled: descriptors with ids of one table were registered, and
storage has opened every index that was recorded -/
def IsAssembled (t : IdTable) (c : IndexConfiguration) : Prop :=
  ∃ skip ds openIndex, (∀ d ∈ ds, t.Has d.id) ∧
    assemble openIndex ((RegistryBuilder.empty skip).registerEach ds).1.finish = .returned (.ok c)

/-- a configuration has an index of this name, at this version -/
def Lists (c : IndexConfiguration) (name : String) (version : UInt32) : Prop :=
  ∃ id ∈ c.indexIds, id.name = name ∧ c.version? id = some version

theorem complete_eq {openIndex : IndexDescriptor → Opening} {r : Registry}
    {ds : List IndexDescriptor} {versions : List (IndexId × UInt32)}
    (h : complete openIndex r versions ds = .returned (.ok c)) :
    c = Assembly.finish ⟨r, [], versions ++ ds.map fun d => (d.id, d.version)⟩ := by
  induction ds generalizing versions with
  | nil =>
    cases h
    rw [List.map_nil, List.append_nil]
  | cons d ds ih =>
    rw [complete] at h
    split at h
    · rw [ih h, List.map_cons, List.append_assoc]
      rfl
    · cases h
    · cases h

def openAll : IndexDescriptor → Opening := fun _ => .returned (.ok ())

theorem complete_openAll (r : Registry) (ds : List IndexDescriptor)
    (versions : List (IndexId × UInt32)) :
    complete openAll r versions ds = .returned (.ok
      (Assembly.finish ⟨r, [], versions ++ ds.map fun d => (d.id, d.version)⟩)) := by
  induction ds generalizing versions with
  | nil => rw [complete, List.map_nil, List.append_nil]
  | cons d ds ih =>
    rw [List.map_cons, List.append_cons, ← ih]
    rfl

/-- **The configurations of cycles are assembled.**  A build goes from index to index, asking storage
in between, and comes to the configuration that is assembled at once. -/
theorem isAssembled_of_build {E : Builds} {n i : Nat} (h : E.Assembled n i c)
    (hids : ∀ ds, E.Answered n i .listDescriptors (.returned (.ok ds)) → ∀ d ∈ ds, t.Has d.id) :
    c.IsAssembled t := by
  obtain ⟨⟨ds, hlist, hr⟩, _, hversions, hfingerprint⟩ := h
  refine ⟨E.first.settings.skipFilenameIndex, ds, openAll, hids ds hlist, ?_⟩
  rw [← Genesis.register_eq hr, assemble, complete_openAll, List.nil_append, ← hversions]
  rw [Assembly.finish, ← hfingerprint]

/-- what an assembled configuration consists of -/
structure Sound (c : IndexConfiguration) : Prop where
  indexed : c.registry.Indexed
  versions : c.versions = c.registry.descriptors.map fun d => (d.id, d.version)
  fingerprint : c.fingerprint = Fingerprint.ofVersions c.versions
  /-- no two indexes have one name -/
  names : (c.indexIds.map (·.name)).Nodup

theorem IsAssembled.sound (h : c.IsAssembled t) : c.Sound := by
  obtain ⟨skip, ds, openIndex, hids, hc⟩ := h
  have hfollows := RegistryBuilder.follows_registerEach skip ds
  rw [complete_eq hc]
  refine ⟨hfollows.indexed, rfl, rfl, ?_⟩
  have hhas (id : IndexId) (hid : id ∈ ((RegistryBuilder.empty skip).registerEach ds).1.registry.ids) :
      t.Has id := by
    rw [Registry.ids, hfollows.descriptors, RegistryBuilder.mem_firsts_ids] at hid
    obtain ⟨d, hd, rfl⟩ := List.mem_map.mp hid.2
    exact hids d hd
  exact hfollows.indexed.nodup.map_on fun a ha b hb hname => (hhas a ha).unique (hhas b hb) hname

namespace Sound

theorem pairs_eq (h : c.Sound) : Fingerprint.pairs c.versions =
    c.registry.descriptors.map fun d => (d.id.name, d.version) := by
  rw [h.versions, Fingerprint.pairs, List.map_map]
  rfl

theorem names_nodup (h : c.Sound) : ((Fingerprint.pairs c.versions).map (·.1)).Nodup := by
  have hnames := h.names
  rw [h.pairs_eq, List.map_map]
  rwa [indexIds, Registry.ids, List.map_map] at hnames

/-- **The pairs of the fingerprint are those that lookups show.** -/
theorem mem_pairs (h : c.Sound) {name : String} {version : UInt32} :
    (name, version) ∈ Fingerprint.pairs c.versions ↔ c.Lists name version := by
  have hversion (d : IndexDescriptor) (hd : d ∈ c.registry.descriptors) :
      c.version? d.id = some d.version := by
    rw [version?, h.versions, h.indexed.lookup_versions, h.indexed.descriptor?_of_mem hd]
    rfl
  rw [h.pairs_eq, List.mem_map]
  constructor
  · rintro ⟨d, hd, heq⟩
    cases heq
    exact ⟨d.id, List.mem_map_of_mem hd, rfl, hversion d hd⟩
  · rintro ⟨id, hid, rfl, hv⟩
    obtain ⟨d, hd, rfl⟩ := List.mem_map.mp hid
    obtain rfl := Option.some.inj ((hversion d hd).symm.trans hv)
    exact ⟨d, hd, rfl⟩

theorem pairs_nodup (h : c.Sound) : (Fingerprint.pairs c.versions).Nodup :=
  .of_map _ h.names_nodup

end Sound

/-- **Equal pairs have equal fingerprints.**  Let two configurations have the same names at the same
versions.  Then their fingerprints are equal, whatever the order of registration, the numbers of the
ids, and all else that the descriptors say; and the fingerprint is the same for every order in which
the versions may be listed. -/
theorem fingerprint_of_pairs {t t' : IdTable} {c c' : IndexConfiguration} (h : c.IsAssembled t)
    (h' : c'.IsAssembled t') (hlists : ∀ name version, c.Lists name version ↔ c'.Lists name version) :
    c.fingerprint = c'.fingerprint ∧
    ∀ vs, vs.Perm c.versions → Fingerprint.ofVersions vs = c.fingerprint := by
  have hs := h.sound
  have hs' := h'.sound
  have hperm : (Fingerprint.pairs c.versions).Perm (Fingerprint.pairs c'.versions) := by
    refine (List.perm_ext_iff_of_nodup hs.pairs_nodup hs'.pairs_nodup).mpr fun ⟨name, version⟩ => ?_
    rw [hs.mem_pairs, hs'.mem_pairs]
    exact hlists name version
  refine ⟨?_, fun vs hvs => ?_⟩
  · rw [hs.fingerprint, hs'.fingerprint, Fingerprint.ofVersions_of_perm hperm]
  · rw [hs.fingerprint]
    exact Fingerprint.ofVersions_of_perm (hvs.map _)

/-- two tables that gave the same names in another order -/
def wordsFirst : IdTable := ((IdTable.initial.create "words").1.create "paths").1

def pathsFirst : IdTable := ((IdTable.initial.create "paths").1.create "words").1

/-- both indexes, with the index of file names left out, a repeated id and other flags -/
def littered : List IndexDescriptor :=
  [{ id := ⟨"paths", 2⟩, version := 1 }, { id := ⟨filenameIndexName, 1⟩, version := 9 },
    { id := ⟨"words", 3⟩, version := 3, contentDependent := false, indexesDirectories := true },
    { id := ⟨"paths", 2⟩, version := 8 }]

def plain : List IndexDescriptor :=
  [{ id := ⟨"words", 2⟩, version := 3 }, { id := ⟨"paths", 3⟩, version := 1 }]

/-- another order, other numbers and other descriptors, and the same fingerprint -/
theorem fingerprint_of_pairs_renumbered :
    ∃ c c' : IndexConfiguration,
      (c.IsAssembled wordsFirst ∧ c.indexIds = [⟨"words", 2⟩, ⟨"paths", 3⟩]) ∧
      (c'.IsAssembled pathsFirst ∧ c'.indexIds = [⟨"paths", 2⟩, ⟨"words", 3⟩]) ∧
      (∀ name version, c.Lists name version ↔ c'.Lists name version) ∧
      c.fingerprint = c'.fingerprint := by
  obtain ⟨c, hc⟩ : ∃ c, assemble openAll ((RegistryBuilder.empty false).registerEach plain).1.finish =
    .returned (.ok c) := ⟨_, rfl⟩
  obtain ⟨c', hc'⟩ : ∃ c', assemble openAll
    ((RegistryBuilder.empty true).registerEach littered).1.finish = .returned (.ok c') := ⟨_, rfl⟩
  have h : c.IsAssembled wordsFirst := ⟨false, plain, openAll, by decide, hc⟩
  have h' : c'.IsAssembled pathsFirst := ⟨true, littered, openAll, by decide, hc'⟩
  have hlists (name : String) (version : UInt32) : c.Lists name version ↔ c'.Lists name version := by
    rw [← h.sound.mem_pairs, ← h'.sound.mem_pairs]
    cases hc
    cases hc'
    show _ ∈ [("words", 3), ("paths", 1)] ↔ _ ∈ [("paths", 1), ("words", 3)]
    simp [or_comm]
  refine ⟨c, c', ⟨h, ?_⟩, ⟨h', ?_⟩, hlists, (fingerprint_of_pairs h h' hlists).1⟩
  · cases hc
    rfl
  · cases hc'
    rfl

end IndexConfiguration

end IndexCoordinator
