import IndexCoordinator.Proofs.Evaluator.Pass

/-!
# What loading more indexes changes

The exemption from the size limit belongs to a registry as a whole: a type that one index exempts is
exempt for all of them.  So an index that is loaded later can give a large file to indexes that were
there before.  It can do nothing else to them, and it never takes a file away.

* `IndexDescriptor.Quiet`, `IndexDescriptor.pass_of_quiet`   predicates that only answer;
* `IndexDescriptor.isOffered_mono`, `IndexDescriptor.isOffered_congr`   what an exemption changes;
* `IndexDescriptor.filter_ids_of_sublist`   who was there before, found by id;
* `Evaluator.required_grows`                lookups before and after more indexes are loaded.
-/

namespace IndexCoordinator

namespace IndexDescriptor

variable {file : IndexedFile} {d : IndexDescriptor} {ds few many : List IndexDescriptor}
  {limit : Nat} {exempt exempt' : Bool}

/-- the predicate of an index, if it has one, answers for every file, and does nothing else -/
def Quiet (d : IndexDescriptor) : Prop :=
  ∀ accept, d.inputFilter.predicate? = some accept → ∀ file, ∃ keep, accept file = pure keep

theorem Quiet.ask (h : d.Quiet) (file : IndexedFile) :
    ∃ keep, d.inputFilter.ask file = pure keep := by
  rw [InputFilter.ask]
  cases hp : d.inputFilter.predicate? with
  | none => exact ⟨true, rfl⟩
  | some accept => exact h accept hp file

/-- **A pass over quiet predicates** returns what they accept. -/
theorem pass_of_quiet (file : IndexedFile) (h : ∀ d ∈ ds, d.Quiet) :
    pass file ds = pure ((ds.filter (takes file)).map (·.id)) := by
  induction ds with
  | nil => rfl
  | cons d ds ih =>
    obtain ⟨hd, hds⟩ := List.forall_mem_cons.mp h
    obtain ⟨keep, hask⟩ := hd.ask file
    have htakes : takes file d = keep := by simp [takes, hask]
    rw [pass_of_returned hask, ih hds, List.filter_cons, htakes]
    cases keep <;> rfl

theorem isOffered_congr
    (h : file.isDirectory = true ∨ file.length ≤ limit ∨ exempt = exempt') :
    d.isOffered limit exempt file = d.isOffered limit exempt' file := by
  unfold isOffered
  obtain hdir | hle | rfl := h
  · rw [hdir]
    rfl
  · rw [decide_eq_false (Nat.not_lt.mpr hle)]
    simp
  · rfl

theorem isOffered_mono (hle : exempt = true → exempt' = true)
    (h : d.isOffered limit exempt file = true) : d.isOffered limit exempt' file = true := by
  cases hdir : file.isDirectory with
  | true => rwa [isOffered_congr (.inl hdir)] at h
  | false =>
    cases exempt' with
    | true =>
      have htype : d.inputFilter.admits file.fileType = true := (Bool.and_eq_true_iff.mp h).2
      simp [isOffered, hdir, htype]
    | false => rwa [Bool.eq_false_iff.mpr (mt hle Bool.false_ne_true)] at h

theorem filter_ids_of_sublist (hmany : (many.map (·.id)).Nodup) (h : few.Sublist many) :
    many.filter (fun d => d.id ∈ few.map (·.id)) = few := by
  induction h with
  | slnil => rfl
  | @cons few many d h ih =>
    obtain ⟨hd, hmany⟩ := List.nodup_cons.mp hmany
    have hnew : d.id ∉ few.map (·.id) := fun hin => hd ((h.map _).subset hin)
    rw [List.filter_cons_of_neg (by simpa using hnew), ih hmany]
  | @cons_cons few many d h ih =>
    obtain ⟨hd, hmany⟩ := List.nodup_cons.mp hmany
    rw [List.filter_cons_of_pos (by simp)]
    refine congrArg (d :: ·) ((List.filter_congr fun x hx => ?_).trans (ih hmany))
    have hne : x.id ≠ d.id := fun heq => hd (List.mem_map.mpr ⟨x, hx, heq⟩)
    simp [hne]

end IndexDescriptor

namespace Evaluator

open IndexDescriptor (isOffered offered takes)

variable {ds : List IndexDescriptor} {types types' : List FileType} {limit : Nat}

/-- an index is kept by a lookup if it is recorded, offered the file and takes it -/
def keeps (skip : Bool) (limit : Nat) (exempt : Bool) (file : IndexedFile) (d : IndexDescriptor) :
    Bool :=
  takes file d && isOffered limit exempt file d && !(skip && d.id.isFilename)

/-- without a repeated id the registry holds what is not passed over -/
theorem records_of_nodup (skip : Bool) (hdup : (ds.map (·.id)).Nodup) (types : List FileType)
    (limit : Nat) :
    (ofDescriptors skip ds types limit).registry.Records (RegistryBuilder.kept skip ds) :=
  RegistryBuilder.firsts_of_nodup (hdup.sublist (List.filter_sublist.map _)) ▸
    records_ofDescriptors skip ds types limit

/-- **A lookup that only answers**: descriptors without a repeated id, with quiet predicates. -/
theorem requiredIndexes_of_quiet (skip : Bool) (hdup : (ds.map (·.id)).Nodup)
    (hquiet : ∀ d ∈ ds, d.Quiet) (types : List FileType) (limit : Nat) (file : IndexedFile) :
    let e := ofDescriptors skip ds types limit
    e.requiredIndexes file = pure ((ds.filter
      (keeps skip limit (e.registry.noLimitTypes.contains file.fileType) file)).map (·.id)) := by
  intro e
  have hrecords : e.registry.Records _ := records_of_nodup skip hdup types limit
  have hpass : e.requiredIndexes file = _ := requiredIndexes_ofRegistry hrecords types limit file
  rw [hpass, offered, ← contains_noLimitTypes hrecords, RegistryBuilder.kept,
    IndexDescriptor.pass_of_quiet file fun d hd =>
      hquiet d (List.mem_of_mem_filter (List.mem_of_mem_filter hd)),
    List.filter_filter, List.filter_filter]
  rfl

theorem noLimitTypes_mono {skip : Bool} {few many : List IndexDescriptor} (hsub : few.Sublist many)
    (hdup : (many.map (·.id)).Nodup) {t : FileType}
    (h : (ofDescriptors skip few types limit).registry.noLimitTypes.contains t = true) :
    (ofDescriptors skip many types' limit).registry.noLimitTypes.contains t = true := by
  have hfew := records_of_nodup skip (hdup.sublist (hsub.map _)) types limit
  have hmany := records_of_nodup skip hdup types' limit
  obtain ⟨d, hd, ht⟩ := (hfew.exempt t).mp (List.contains_iff_mem.mp h)
  exact List.contains_iff_mem.mpr ((hmany.exempt t).mpr ⟨d, (hsub.filter _).subset hd, ht⟩)

/-- **Loading more indexes only adds.**  Let no id be repeated, and let predicates only answer.  Every
file keeps its indexes, in their order, when more are loaded.  Where the file is a directory, is not
above the limit, or has a type that is exempt after as it was before, those that were there before
are required after exactly if they were required before. -/
theorem required_grows (skip : Bool) {few many : List IndexDescriptor} (types types' : List FileType)
    (limit : Nat) (file : IndexedFile) (hsub : few.Sublist many) (hdup : (many.map (·.id)).Nodup)
    (hquiet : ∀ d ∈ many, d.Quiet) :
    let before := ofDescriptors skip few types limit
    let after := ofDescriptors skip many types' limit
    ∃ kept grown, before.requiredIndexes file = pure kept ∧ after.requiredIndexes file = pure grown ∧
      kept.Sublist grown ∧
      (file.isDirectory = true ∨ file.length ≤ limit ∨
        before.registry.noLimitTypes.contains file.fileType =
          after.registry.noLimitTypes.contains file.fileType →
        (grown.filter fun id => id ∈ few.map (·.id)) = kept) := by
  intro before after
  have hkept := requiredIndexes_of_quiet skip (hdup.sublist (hsub.map _))
    (fun d hd => hquiet d (hsub.subset hd)) types limit file
  have hgrown := requiredIndexes_of_quiet skip hdup hquiet types' limit file
  refine ⟨_, _, hkept, hgrown, ?_, fun hsame => ?_⟩
  · refine ((List.monotone_filter_right few fun d hd => ?_).trans (hsub.filter _)).map _
    simp only [keeps, Bool.and_eq_true] at hd ⊢
    obtain ⟨⟨htakes, hoffered⟩, hrecorded⟩ := hd
    refine ⟨⟨htakes, ?_⟩, hrecorded⟩
    exact IndexDescriptor.isOffered_mono (noLimitTypes_mono hsub hdup) hoffered
  · have hkeeps : keeps skip limit (before.registry.noLimitTypes.contains file.fileType) file =
        keeps skip limit (after.registry.noLimitTypes.contains file.fileType) file := by
      funext d
      rw [keeps, keeps, IndexDescriptor.isOffered_congr hsame]
    -- among those that are kept after, the ones from before are found by id
    have hold : many.filter (fun d => d.id ∈ few.map (·.id)) = few :=
      IndexDescriptor.filter_ids_of_sublist hdup hsub
    change _ = (few.filter (keeps skip limit _ file)).map (·.id)
    rw [hkeeps, List.filter_map, List.filter_filter]
    conv_rhs => rw [← hold, List.filter_filter]
    refine congrArg (List.map _) (List.filter_congr fun d _ => ?_)
    rw [Bool.and_comm]
    rfl

/-- a large file goes to an index that was there before only because another one exempts its type -/
theorem required_grows_by_exemption :
    let rust : FileType := ⟨"rust"⟩
    let words : IndexDescriptor := { id := ⟨"words", 1⟩ }
    let stubs : IndexDescriptor :=
      { id := ⟨"stubs", 2⟩, sizeLimitExempt := [rust],
        inputFilter := .fileTypesAnd [rust] fun file => pure (file.path == "a.rs") }
    let huge : IndexedFile := .regular "a.rs" rust 11
    [words].Sublist [words, stubs] ∧ ([words, stubs].map (·.id)).Nodup ∧
    (∀ d ∈ [words, stubs], d.Quiet) ∧
    (∃ kept grown, (ofDescriptors false [words] [] 10).requiredIndexes huge = pure kept ∧
      (ofDescriptors false [words, stubs] [rust] 10).requiredIndexes huge = pure grown ∧
      kept.Sublist grown) ∧
    (ofDescriptors false [words] [] 10).requiredIndexes huge = pure [] ∧
    (ofDescriptors false [words, stubs] [rust] 10).requiredIndexes huge = pure [words.id, stubs.id] := by
  intro rust words stubs huge
  have hsub : [words].Sublist [words, stubs] := .cons_cons _ (.cons _ .slnil)
  have hdup : ([words, stubs].map (·.id)).Nodup := by decide
  have hquiet : ∀ d ∈ [words, stubs], d.Quiet := by
    intro d hd accept haccept file
    obtain rfl | rfl : d = words ∨ d = stubs := by simpa using hd
    · cases haccept
    · cases haccept
      exact ⟨_, rfl⟩
  obtain ⟨kept, grown, hkept, hgrown, hle, _⟩ :=
    required_grows false [] [rust] 10 huge hsub hdup hquiet
  exact ⟨hsub, hdup, hquiet, ⟨kept, grown, hkept, hgrown, hle⟩, rfl, rfl⟩

end Evaluator

end IndexCoordinator
