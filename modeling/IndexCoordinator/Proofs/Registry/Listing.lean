import IndexCoordinator.Proofs.Registry.History

/-!
# The registration of a listing

A build registers the descriptors of a listing and stops at the first that is refused.

* `RegistryBuilder.FirstRepeat`     the first descriptor of a listing that repeats an id;
* `RegistryBuilder.Follows.registerAll`   from a history that repeats no id, registration goes
                                    through or stops at the first repeated one;
* `Genesis.register_cases`          so it is for a whole listing.
-/

namespace IndexCoordinator

namespace RegistryBuilder

variable {b : RegistryBuilder} {before ds : List IndexDescriptor} {d : IndexDescriptor}
  {skip : Bool} {id : IndexId}

theorem mem_kept_ids :
    id ∈ (kept skip ds).map (·.id) ↔ (skip && id.isFilename) = false ∧ id ∈ ds.map (·.id) := by
  simp only [kept, List.mem_map, List.mem_filter, Bool.not_eq_true']
  constructor
  · rintro ⟨d, ⟨hd, hs⟩, rfl⟩
    exact ⟨hs, d, hd, rfl⟩
  · rintro ⟨hs, d, hd, rfl⟩
    exact ⟨d, ⟨hd, hs⟩, rfl⟩

theorem kept_concat (skip : Bool) (before : List IndexDescriptor) (d : IndexDescriptor) :
    kept skip (before ++ [d]) =
      kept skip before ++ if skip && d.id.isFilename then [] else [d] := by
  rw [kept, List.filter_append, List.filter_singleton]
  cases skip && d.id.isFilename <;> rfl

/-- the first descriptor of a listing that is not passed over and repeats the id of one before it -/
def FirstRepeat (skip : Bool) (ds : List IndexDescriptor) (d : IndexDescriptor) : Prop :=
  ∃ before after, ds = before ++ d :: after ∧ ((kept skip before).map (·.id)).Nodup ∧
    d.id ∈ (kept skip before).map (·.id)

theorem answer_cases (h : ((kept skip before).map (·.id)).Nodup) (d : IndexDescriptor) :
    (answer skip before d = .ok () ∧ ((kept skip (before ++ [d])).map (·.id)).Nodup) ∨
      answer skip before d = .error (.duplicateIndex d.id) ∧
        d.id ∈ (kept skip before).map (·.id) := by
  rw [answer, kept_concat, mem_kept_ids]
  cases hs : skip && d.id.isFilename with
  | true => simpa using h
  | false =>
    cases hin : before.any fun x => x.id == d.id with
    | true =>
      obtain ⟨x, hx, heq⟩ := List.any_eq_true.mp hin
      exact .inr ⟨rfl, rfl, List.mem_map.mpr ⟨x, hx, by simpa using heq⟩⟩
    | false =>
      have hnew : d.id ∉ (kept skip before).map (·.id) := by
        rw [mem_kept_ids]
        rintro ⟨_, hid⟩
        obtain ⟨x, hx, heq⟩ := List.mem_map.mp hid
        exact List.any_eq_false.mp hin x hx (by simpa using heq)
      refine .inl ⟨rfl, ?_⟩
      rw [if_neg Bool.false_ne_true, List.map_append]
      exact List.nodup_append_comm.mp (List.nodup_cons.mpr ⟨hnew, h⟩)

/-- **Registration goes through, or it stops at the first repeated id.** -/
theorem Follows.registerAll (hb : b.Follows skip before)
    (h : ((kept skip before).map (·.id)).Nodup) (ds : List IndexDescriptor) :
    (∃ b', b.registerAll ds = .ok b' ∧ b'.Follows skip (before ++ ds) ∧
      ((kept skip (before ++ ds)).map (·.id)).Nodup) ∨
    ∃ mid d after, ds = mid ++ d :: after ∧ ((kept skip (before ++ mid)).map (·.id)).Nodup ∧
      d.id ∈ (kept skip (before ++ mid)).map (·.id) ∧
      b.registerAll ds = .error (.duplicateIndex d.id) := by
  induction ds generalizing b before with
  | nil =>
    rw [List.append_nil]
    exact .inl ⟨b, rfl, hb, h⟩
  | cons d ds ih =>
    rw [RegistryBuilder.registerAll, hb.register d]
    obtain ⟨hok, hnodup⟩ | ⟨herror, hid⟩ := answer_cases h d
    · rw [hok]
      obtain ⟨b', hall, hfollows, hnodup'⟩ | ⟨mid, d', after, rfl, hmid, hid, hall⟩ :=
        ih (hb.goOn d) hnodup
      · rw [← List.append_cons] at hfollows hnodup'
        exact .inl ⟨b', hall, hfollows, hnodup'⟩
      · rw [← List.append_cons] at hmid hid
        exact .inr ⟨d :: mid, d', after, rfl, hmid, hid, hall⟩
    · rw [herror]
      refine .inr ⟨[], d, ds, rfl, ?_, ?_, rfl⟩
      · rwa [List.append_nil]
      · rwa [List.append_nil]

end RegistryBuilder

/-- **The registration of a listing.**  The registry holds exactly what is not passed over, in
order; or the first repeated id is refused. -/
theorem Genesis.register_cases (settings : IndexingSettings) (ds : List IndexDescriptor) :
    (∃ r, register settings ds = .ok r ∧
      r.Records (RegistryBuilder.kept settings.skipFilenameIndex ds)) ∨
    ∃ d, RegistryBuilder.FirstRepeat settings.skipFilenameIndex ds d ∧
      register settings ds = .error (.duplicateIndex d.id) := by
  obtain ⟨b, hall, hfollows, hnodup⟩ | ⟨before, d, after, hds, hnodup, hid, hall⟩ :=
    (RegistryBuilder.follows_empty settings.skipFilenameIndex).registerAll List.nodup_nil ds
  · rw [RegistryBuilder.empty] at hall
    refine .inl ⟨b.finish, ?_, RegistryBuilder.firsts_of_nodup hnodup ▸ hfollows.records⟩
    rw [register, hall]
  · rw [RegistryBuilder.empty] at hall
    refine .inr ⟨d, ⟨before, after, hds, hnodup, hid⟩, ?_⟩
    rw [register, hall]

end IndexCoordinator
