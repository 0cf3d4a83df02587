import IndexCoordinator.Proofs.Fingerprint.Entries

/-!
# A changed version changes the fingerprint

A fingerprint is made word by word: every word is added and the sum multiplied by an odd factor, and
the last sum is rotated.  Each of these steps can be taken back, so two sequences that differ in one
word have different hashes.  The version of an index is one word, and it stands at the same place as
long as the names stay.

* `Fingerprint.add_hash_inj`, `Fingerprint.add_word_inj`, `Fingerprint.rotate_inj`   the steps can
                                              be taken back;
* `Fingerprint.version_of_ofEntries`          the version of one pair can be told from the hash;
* `IndexConfiguration.Sound.sorted_pairs`     the pairs in order are the names in order, each with
                                              its version;
* `IndexConfiguration.bump_detected`          one changed version changes the fingerprint.
-/

namespace IndexCoordinator

namespace Fingerprint

/-- the inverse of the factor, modulo 2^64 -/
def cofactor : UInt64 := 0x781494a55daaed0d

theorem factor_mul_cofactor : factor * cofactor = 1 := by decide

theorem mul_factor_inj {x y : UInt64} (h : x * factor = y * factor) : x = y := by
  have hmul := congrArg (· * cofactor) h
  simpa only [UInt64.mul_assoc, factor_mul_cofactor, UInt64.mul_one] using hmul

theorem add_hash_inj {h h' x : UInt64} (heq : add h x = add h' x) : h = h' :=
  (UInt64.add_left_inj x).mp (mul_factor_inj heq)

theorem add_word_inj {h x x' : UInt64} (heq : add h x = add h x') : x = x' :=
  (UInt64.add_right_inj h).mp (mul_factor_inj heq)

theorem addAll_append (h : UInt64) (before after : List UInt64) :
    addAll h (before ++ after) = addAll (addAll h before) after := List.foldl_append

theorem addAll_hash_inj {words : List UInt64} {h h' : UInt64}
    (heq : addAll h words = addAll h' words) : h = h' := by
  induction words generalizing h h' with
  | nil => exact heq
  | cons x words ih => exact add_hash_inj (ih heq)

/-- **One word can be told from the hash of a sequence.** -/
theorem addAll_word_inj {h x x' : UInt64} {before after : List UInt64}
    (heq : addAll h (before ++ x :: after) = addAll h (before ++ x' :: after)) : x = x' := by
  rw [addAll_append, addAll_append] at heq
  exact add_word_inj (addAll_hash_inj heq)

theorem rotate_inj {h h' : UInt64} (heq : rotate h = rotate h') : h = h' := by
  have hbits (j : Nat) : (h.toBitVec.rotateLeft 26).getLsbD j
      = (h'.toBitVec.rotateLeft 26).getLsbD j :=
    congrArg (fun x : UInt64 => x.toBitVec.getLsbD j) heq
  refine UInt64.toBitVec_inj.mp (BitVec.eq_of_getLsbD_eq fun i hi => ?_)
  -- the low bits have moved up by 26 places, the high ones have come in below
  by_cases hlow : i < 38
  · have hbit := hbits (26 + i)
    have hlt : 26 + i < 64 := by omega
    simpa [BitVec.getLsbD_rotateLeft, hlt, BitVec.getLsbD_eq_getElem hi] using hbit
  · have hbit := hbits (i - 38)
    have hlt : i - 38 < 26 := by omega
    have hback : 38 + (i - 38) = i := by omega
    simpa [BitVec.getLsbD_rotateLeft, hlt, hback] using hbit

/-- **One version can be told from the hash of the pairs.** -/
theorem version_of_ofEntries {before after : List (String × UInt32)} {name : String}
    {version version' : UInt32}
    (heq : ofEntries (before ++ (name, version) :: after) =
      ofEntries (before ++ (name, version') :: after)) : version = version' := by
  have hwords (v : UInt32) : (before ++ (name, v) :: after).flatMap entryWords =
      (before.flatMap entryWords ++ nameWords name) ++ v.toUInt64 :: after.flatMap entryWords := by
    simp [entryWords]
  have hlen (v : UInt32) : (before ++ (name, v) :: after).length =
      before.length + (after.length + 1) := by simp
  have hhash := rotate_inj heq
  rw [hwords, hwords, hlen, hlen] at hhash
  exact UInt32.toUInt64_inj.mp (addAll_word_inj hhash)

/-- **A version that alone differs can be told from the hash.** -/
theorem version_of_map {names : List String} {version version' : String → UInt32} {bumped : String}
    (hnodup : names.Nodup) (hbumped : bumped ∈ names)
    (hsame : ∀ name ∈ names, name ≠ bumped → version name = version' name)
    (heq : ofEntries (names.map fun name => (name, version name)) =
      ofEntries (names.map fun name => (name, version' name))) :
    version bumped = version' bumped := by
  obtain ⟨before, after, rfl⟩ := List.append_of_mem hbumped
  rw [List.nodup_middle, List.nodup_cons] at hnodup
  have haround (l : List String) (hl : l ⊆ before ++ after) :
      (l.map fun name => (name, version name)) = l.map fun name => (name, version' name) := by
    refine List.map_congr_left fun name hname => ?_
    have hne : name ≠ bumped := fun he => hnodup.1 (he ▸ hl hname)
    have hin : name ∈ before ++ bumped :: after := by
      rw [List.mem_append, List.mem_cons, or_left_comm, ← List.mem_append]
      exact .inr (hl hname)
    rw [hsame name hin hne]
  rw [List.map_append, List.map_append, List.map_cons, List.map_cons,
    haround before (List.subset_append_left _ _), haround after (List.subset_append_right _ _)] at heq
  exact version_of_ofEntries heq

end Fingerprint

namespace IndexConfiguration

variable {c c' : IndexConfiguration} {names : List String} {version version' : String → UInt32}

/-- a configuration over these names, each at its version -/
def IsOver (c : IndexConfiguration) (names : List String) (version : String → UInt32) : Prop :=
  ∀ name v, c.Lists name v ↔ name ∈ names ∧ v = version name

def sortedNames (c : IndexConfiguration) : List String :=
  ((Fingerprint.pairs c.versions).mergeSort Fingerprint.entryLe).map (·.1)

theorem Sound.mem_sortedNames (h : c.Sound) (hover : c.IsOver names version) {name : String} :
    name ∈ c.sortedNames ↔ name ∈ names := by
  have hsort := List.mergeSort_perm (Fingerprint.pairs c.versions) Fingerprint.entryLe
  rw [sortedNames, (hsort.map _).mem_iff, List.mem_map]
  constructor
  · rintro ⟨⟨n, v⟩, hp, rfl⟩
    exact ((hover n v).mp (h.mem_pairs.mp hp)).1
  · intro hname
    exact ⟨(name, version name), h.mem_pairs.mpr ((hover _ _).mpr ⟨hname, rfl⟩), rfl⟩

theorem Sound.nodup_sortedNames (h : c.Sound) : c.sortedNames.Nodup :=
  (((List.mergeSort_perm _ _).map _).nodup_iff).mpr h.names_nodup

theorem pairwise_sortedNames (c : IndexConfiguration) : c.sortedNames.Pairwise (· ≤ ·) := by
  refine List.pairwise_map.mpr ((Fingerprint.pairwise_sorted _).imp fun hle => ?_)
  obtain hlt | ⟨heq, _⟩ := Fingerprint.entryLe_iff.mp hle
  · exact le_of_lt hlt
  · exact le_of_eq heq

theorem Sound.sorted_pairs (h : c.Sound) (hover : c.IsOver names version) :
    (Fingerprint.pairs c.versions).mergeSort Fingerprint.entryLe =
      c.sortedNames.map fun name => (name, version name) := by
  rw [sortedNames, List.map_map]
  refine (List.map_id _).symm.trans (List.map_congr_left fun p hp => ?_)
  obtain ⟨_, hv⟩ := (hover p.1 p.2).mp (h.mem_pairs.mp ((List.mergeSort_perm _ _).mem_iff.mp hp))
  exact Prod.ext rfl hv

theorem Sound.fingerprint_eq (h : c.Sound) (hover : c.IsOver names version) :
    c.fingerprint =
      Fingerprint.ofEntries (c.sortedNames.map fun name => (name, version name)) := by
  rw [h.fingerprint, ← h.sorted_pairs hover]
  rfl

theorem Sound.sortedNames_eq (h : c.Sound) (h' : c'.Sound) (hover : c.IsOver names version)
    (hover' : c'.IsOver names version') : c.sortedNames = c'.sortedNames := by
  refine List.Perm.eq_of_pairwise (fun _ _ _ _ => le_antisymm) c.pairwise_sortedNames
    c'.pairwise_sortedNames ?_
  refine (List.perm_ext_iff_of_nodup h.nodup_sortedNames h'.nodup_sortedNames).mpr fun name => ?_
  rw [h.mem_sortedNames hover, h'.mem_sortedNames hover']

/-- **A bumped version is detected.**  Two configurations over the same names, whose versions differ
at exactly one of them, have different fingerprints. -/
theorem bump_detected {t t' : IdTable} (h : c.IsAssembled t) (h' : c'.IsAssembled t')
    (hover : c.IsOver names version) (hover' : c'.IsOver names version') {bumped : String}
    (hbumped : bumped ∈ names)
    (hdiffer : ∀ name ∈ names, version name ≠ version' name ↔ name = bumped) :
    c.fingerprint ≠ c'.fingerprint := by
  have hs := h.sound
  intro heq
  rw [hs.fingerprint_eq hover, h'.sound.fingerprint_eq hover',
    ← hs.sortedNames_eq h'.sound hover hover'] at heq
  refine (hdiffer bumped hbumped).mpr rfl (Fingerprint.version_of_map hs.nodup_sortedNames
    ((hs.mem_sortedNames hover).mpr hbumped) (fun name hname hne => ?_) heq)
  by_contra hdiff
  exact hne ((hdiffer name ((hs.mem_sortedNames hover).mp hname)).mp hdiff)

def wordsAt (version : UInt32) : List IndexDescriptor :=
  [{ id := ⟨"paths", 3⟩, version := 1 }, { id := ⟨"words", 2⟩, version },
    { id := ⟨filenameIndexName, 1⟩ }]

theorem isOver_wordsAt {v : UInt32} (h : c.IsAssembled wordsFirst)
    (hc : assemble openAll ((RegistryBuilder.empty false).registerEach (wordsAt v)).1.finish =
      .returned (.ok c)) :
    c.IsOver ["paths", "words", filenameIndexName]
      fun name => if name = "words" then v else if name = "paths" then 1 else 0 := by
  intro name w
  rw [← h.sound.mem_pairs]
  cases hc
  show (name, w) ∈ [("paths", 1), ("words", v), (filenameIndexName, 0)] ↔ _
  simp only [List.mem_cons, List.not_mem_nil, or_false, Prod.mk.injEq]
  constructor
  · rintro (⟨rfl, rfl⟩ | ⟨rfl, rfl⟩ | ⟨rfl, rfl⟩) <;> simp [filenameIndexName]
  · rintro ⟨rfl | rfl | rfl, rfl⟩ <;> simp [filenameIndexName]

/-- the largest version of an index is told from the one before it -/
theorem bump_detected_last :
    ∃ c c' : IndexConfiguration,
      (c.IsAssembled wordsFirst ∧ c.Lists "words" 0xfffffffe) ∧
      (c'.IsAssembled wordsFirst ∧ c'.Lists "words" 0xffffffff) ∧ c.fingerprint ≠ c'.fingerprint := by
  obtain ⟨c, hc⟩ : ∃ c, assemble openAll
    ((RegistryBuilder.empty false).registerEach (wordsAt 0xfffffffe)).1.finish =
      .returned (.ok c) := ⟨_, rfl⟩
  obtain ⟨c', hc'⟩ : ∃ c', assemble openAll
    ((RegistryBuilder.empty false).registerEach (wordsAt 0xffffffff)).1.finish =
      .returned (.ok c') := ⟨_, rfl⟩
  have h : c.IsAssembled wordsFirst := ⟨false, _, openAll, by decide, hc⟩
  have h' : c'.IsAssembled wordsFirst := ⟨false, _, openAll, by decide, hc'⟩
  have hover := isOver_wordsAt h hc
  have hover' := isOver_wordsAt h' hc'
  have hin : "words" ∈ ["paths", "words", filenameIndexName] := by decide
  exact ⟨c, c', ⟨h, (hover _ _).mpr ⟨hin, rfl⟩⟩, ⟨h', (hover' _ _).mpr ⟨hin, rfl⟩⟩,
    bump_detected h h' hover hover' hin (by decide)⟩

end IndexConfiguration

end IndexCoordinator
