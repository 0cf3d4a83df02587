import IndexCoordinator.Proofs.Evaluator.Pass

/-!
# What the view of a type says about lookups

`requiredForType` splits the registered indexes by type alone, before any file is seen.  A lookup for a
file of that type then goes one of two ways, by whether the file is a directory; both offer the file to
indexes of the first part only.

* `Evaluator.requiredForType_ofRegistry`   the two parts, as filters of what is recorded;
* `IndexDescriptor.outcome_pass_cases`     a pass panics with one of its predicates or returns;
* `Evaluator.Within`                       a lookup stays within a part;
* `Evaluator.required_within_view`         the parts share out the registered indexes, and lookups stay
                                           within the first.
-/

namespace IndexCoordinator

namespace IndexDescriptor

variable {file : IndexedFile} {d : IndexDescriptor} {ds : List IndexDescriptor} {limit : Nat}
  {exempt : Bool}

theorem admits_of_isOffered (h : d.isOffered limit exempt file = true) :
    d.inputFilter.admits file.fileType = true := (Bool.and_eq_true_iff.mp h).2

theorem isOffered_of_le (hfile : file.isDirectory = false) (hle : file.length ≤ limit)
    (h : d.inputFilter.admits file.fileType = true) : d.isOffered limit exempt file = true := by
  simp [isOffered, hfile, Nat.not_lt.mpr hle, h]

theorem takes_of_no_predicate (h : d.inputFilter.predicate? = none) : d.takes file = true := by
  simp [takes, InputFilter.ask, h]

/-- **How a pass ends**: with the panic of one of its predicates, or with what they accept. -/
theorem outcome_pass_cases (file : IndexedFile) (ds : List IndexDescriptor) :
    (∃ d ∈ ds, ∃ p, (d.inputFilter.ask file).outcome = .panicked p ∧
      (pass file ds).outcome = .panicked p) ∨
    (pass file ds).outcome = .returned ((ds.filter (takes file)).map (·.id)) := by
  rw [outcome_pass]
  cases hp : firstPanic? file ds with
  | none => exact .inr rfl
  | some p =>
    obtain ⟨d, hd, hask⟩ := List.exists_of_findSome?_eq_some hp
    refine .inl ⟨d, hd, p, ?_, rfl⟩
    cases ho : (d.inputFilter.ask file).outcome with
    | returned keep => simp [ho, Outcome.panic?] at hask
    | panicked q => simpa [ho, Outcome.panic?] using hask

end IndexDescriptor

namespace Evaluator

variable {r : Registry} {ds : List IndexDescriptor} {types : List FileType} {limit : Nat}

/-- **The view of a type** is what is recorded, shared out by whether the filter takes the type. -/
theorem requiredForType_ofRegistry (h : r.Records ds) (types : List FileType) (limit : Nat)
    (t : FileType) :
    (ofRegistry r types limit).requiredForType t =
      ((ds.filter fun d => d.inputFilter.admits t).map (·.id),
        (ds.filter fun d => !d.inputFilter.admits t).map (·.id)) := by
  have hcandidate (d : IndexDescriptor) : (TypeIndexes.candidate? t d).map (·.id) =
      if d.inputFilter.admits t then some d.id else none := by
    rw [TypeIndexes.candidate?]
    split <;> rfl
  have hrun : (ds.filterMap (TypeIndexes.candidate? t)).map (·.id) =
      (ds.filter fun d => d.inputFilter.admits t).map (·.id) := by
    rw [List.map_filterMap, ← List.filterMap_eq_map, List.filterMap_filter]
    exact List.filterMap_congr fun d _ => hcandidate d
  rw [requiredForType, forType_ofRegistry, TypeIndexes.compute_eq, h.descriptors, ← hrun]

/-- a lookup answers with some of these indexes, in their order, and with every one of them that
takes any file of a type that it takes at all, unless the file is too large -/
structure Within (e : Evaluator) (file : IndexedFile) (run required : List IndexId) : Prop where
  answered : (e.requiredIndexes file).outcome = .returned required
  sublist : required.Sublist run
  unchecked : ∀ id ∈ run, ∀ d, e.registry.descriptor? id = some d →
    d.inputFilter.predicate? = none → file.isDirectory = false → file.length ≤ e.fileSizeLimit →
    id ∈ required

open IndexDescriptor (isOffered offered takes)

/-- **A lookup and the view of its type**: a predicate of the first part panics, or the answer stays
within that part. -/
theorem lookup_within_view (h : r.Records ds) (types : List FileType) (limit : Nat)
    (file : IndexedFile) :
    let e := ofRegistry r types limit
    let run := (e.requiredForType file.fileType).1
    (∃ d ∈ ds, d.id ∈ run ∧ ∃ p, (d.inputFilter.ask file).outcome = .panicked p ∧
      (e.requiredIndexes file).outcome = .panicked p) ∨
    ∃ required, Within e file run required := by
  intro e run
  have hrun : run = (ds.filter fun d => d.inputFilter.admits file.fileType).map (·.id) :=
    congrArg Prod.fst (requiredForType_ofRegistry h types limit file.fileType)
  have hpass : e.requiredIndexes file = _ := requiredIndexes_ofRegistry h types limit file
  rw [offered] at hpass
  generalize (ds.any fun d => d.sizeLimitExempt.contains file.fileType) = exempt at hpass
  obtain ⟨d, hd, p, hask, hout⟩ | hout :=
    IndexDescriptor.outcome_pass_cases file (ds.filter (isOffered limit exempt file))
  · obtain ⟨hd, hoffered⟩ := List.mem_filter.mp hd
    refine .inl ⟨d, hd, ?_, p, hask, hpass ▸ hout⟩
    rw [hrun]
    exact List.mem_map_of_mem
      (List.mem_filter.mpr ⟨hd, IndexDescriptor.admits_of_isOffered hoffered⟩)
  · refine .inr ⟨_, hpass ▸ hout, ?_, fun id hid d hd hpredicate hfile hle => ?_⟩
    · rw [hrun]
      exact (List.filter_sublist.trans (List.monotone_filter_right ds
        fun d hd => IndexDescriptor.admits_of_isOffered hd)).map _
    · rw [hrun] at hid
      obtain ⟨x, hx, rfl⟩ := List.mem_map.mp hid
      obtain ⟨hx, hadmits⟩ := List.mem_filter.mp hx
      -- the descriptor that the registry finds for an id is the one that was filtered
      obtain rfl : x = d := by
        obtain ⟨hdmem, hid⟩ := h.descriptor?_eq_some.mp hd
        exact List.inj_on_of_nodup_map h.ids_nodup hx hdmem hid.symm
      have hoffered : x.isOffered limit exempt file = true :=
        IndexDescriptor.isOffered_of_le hfile hle hadmits
      exact List.mem_map_of_mem (List.mem_filter.mpr ⟨List.mem_filter.mpr ⟨hx, hoffered⟩,
        IndexDescriptor.takes_of_no_predicate hpredicate⟩)

/-- **Lookups stay within the view of their type.**  The two parts of a view are disjoint, both in
order of registration, and together they hold every registered index once.  For a file of the type,
a directory or not and of any length, a lookup ends with the panic of a predicate of the first part,
or it returns members of the first part in their order, none of the second, and among them, if the
file is no directory and not above the limit, all whose filter has no predicate. -/
theorem required_within_view (skip : Bool) (ds : List IndexDescriptor) (types : List FileType)
    (limit : Nat) (t : FileType) :
    let e := ofDescriptors skip ds types limit
    let run := (e.requiredForType t).1
    let excluded := (e.requiredForType t).2
    e.fileSizeLimit = limit ∧ e.registry.Records (RegistryBuilder.firsts skip ds) ∧
    (run.Disjoint excluded ∧ (run ++ excluded).Perm e.registry.ids ∧ e.registry.ids.Nodup) ∧
    (run.Sublist e.registry.ids ∧ excluded.Sublist e.registry.ids) ∧
    ∀ file : IndexedFile, file.fileType = t →
      (∃ d ∈ e.registry.descriptors, d.id ∈ run ∧ ∃ p,
        (d.inputFilter.ask file).outcome = .panicked p ∧
        (e.requiredIndexes file).outcome = .panicked p) ∨
      ∃ required, Within e file run required ∧ required.Disjoint excluded := by
  intro e run excluded
  have hrecords : e.registry.Records (RegistryBuilder.firsts skip ds) :=
    records_ofDescriptors skip ds types limit
  have hids : e.registry.ids = (RegistryBuilder.firsts skip ds).map (·.id) := by
    rw [Registry.ids, hrecords.descriptors]
  have hview : (run, excluded) = _ := requiredForType_ofRegistry hrecords types limit t
  obtain ⟨hrun, hexcluded⟩ := Prod.mk.inj hview
  have hperm : (run ++ excluded).Perm e.registry.ids := by
    rw [hrun, hexcluded, hids, ← List.map_append]
    exact (List.filter_append_perm _ _).map _
  have hnodup : e.registry.ids.Nodup := hids ▸ hrecords.ids_nodup
  have hdisjoint : run.Disjoint excluded :=
    List.disjoint_of_nodup_append (hperm.nodup_iff.mpr hnodup)
  refine ⟨rfl, hrecords, ⟨hdisjoint, hperm, hnodup⟩, ⟨?_, ?_⟩, ?_⟩
  · rw [hrun, hids]
    exact List.filter_sublist.map _
  · rw [hexcluded, hids]
    exact List.filter_sublist.map _
  · rintro file rfl
    refine (lookup_within_view hrecords types limit file).imp ?_ ?_
    · rintro ⟨d, hd, hpanic⟩
      exact ⟨d, hrecords.descriptors ▸ hd, hpanic⟩
    · rintro ⟨required, hwithin⟩
      exact ⟨required, hwithin, fun id hid => hdisjoint (hwithin.sublist.subset hid)⟩

end Evaluator

end IndexCoordinator
