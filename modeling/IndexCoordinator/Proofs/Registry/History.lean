import IndexCoordinator.Proofs.Registry.Registration
import Mathlib.Data.List.Induction

/-!
# What a history of registrations leaves behind

Descriptors are registered one after the other, whatever became of those before.  A descriptor is
recorded if it is the first of its id; the index of file names is passed over where it is left out,
and a repeated id is refused.

* `Registry.Classified`, `Registry.Records`   a registry holds exactly these descriptors, and all its
                                              tables agree with them;
* `RegistryBuilder.firsts`                    the descriptors that are recorded;
* `RegistryBuilder.Follows`                   the builder of a history: `Follows.goOn` is one
                                              registration, `follows_registerEach` all of them;
* `RegistryBuilder.registration_history`      the registry, the answers and the states of a history.
-/

namespace IndexCoordinator

theorem FileType.mem_foldl_insert {types known : List FileType} {t : FileType} :
    t ∈ types.foldl (fun known t => known.insert t) known ↔ t ∈ known ∨ t ∈ types := by
  induction types generalizing known with
  | nil => simp
  | cons x types ih =>
    rw [List.foldl_cons, ih, List.mem_insert_iff, List.mem_cons, or_assoc, or_left_comm]

theorem FileType.nodup_foldl_insert {types known : List FileType} (h : known.Nodup) :
    (types.foldl (fun known t => known.insert t) known).Nodup := by
  induction types generalizing known with
  | nil => exact h
  | cons x types ih => exact ih h.insert

namespace Registry

variable {r : Registry} {d : IndexDescriptor} {ds : List IndexDescriptor} {id : IndexId}

def Flagged (ds : List IndexDescriptor) (flag : Bool) (id : IndexId) : Prop :=
  ∃ d ∈ ds, d.contentDependent = flag ∧ d.id = id

theorem flagged_concat {flag : Bool} :
    Flagged (ds ++ [d]) flag id ↔ Flagged ds flag id ∨ d.contentDependent = flag ∧ id = d.id := by
  simp [Flagged, or_and_right, exists_or, eq_comm (a := id)]

theorem Flagged.mem {flag : Bool} (h : Flagged ds flag id) : id ∈ ds.map (·.id) := by
  obtain ⟨d, hd, _, rfl⟩ := h
  exact List.mem_map_of_mem hd

theorem Flagged.unique (hds : (ds.map (·.id)).Nodup) (ht : Flagged ds true id) :
    ¬ Flagged ds false id := by
  rintro ⟨d, hd, hflag, hid⟩
  obtain ⟨x, hx, hxflag, hxid⟩ := ht
  have hdx : d = x := List.inj_on_of_nodup_map hds hd hx (hid.trans hxid.symm)
  subst hdx
  cases hflag.symm.trans hxflag

/-- the sets of a registry are those of its descriptors -/
structure Classified (r : Registry) : Prop where
  requiring : ∀ id, id ∈ r.requiringContent ↔ Flagged r.descriptors true id
  notRequiring : ∀ id, id ∈ r.notRequiringContent ↔ Flagged r.descriptors false id
  directories : r.forDirectories =
    (r.descriptors.filter fun d => !d.contentDependent && d.indexesDirectories).map (·.id)
  exempt : ∀ t, t ∈ r.noLimitTypes ↔ ∃ d ∈ r.descriptors, t ∈ d.sizeLimitExempt
  nodup : r.requiringContent.Nodup ∧ r.notRequiringContent.Nodup ∧ r.noLimitTypes.Nodup

theorem classified_empty : Classified {} := by constructor <;> simp [Flagged]

theorem Classified.not_mem_of_new (h : r.Classified) (hd : d.id ∉ r.ids) :
    d.id ∉ r.requiringContent ∧ d.id ∉ r.notRequiringContent :=
  ⟨fun hr => hd ((h.requiring _).mp hr).mem, fun hn => hd ((h.notRequiring _).mp hn).mem⟩

theorem Classified.add (h : r.Classified) (hd : d.id ∉ r.ids) : (r.add d).Classified := by
  have hds : (r.add d).descriptors = r.descriptors ++ [d] := rfl
  have htypes : (r.add d).noLimitTypes =
    d.sizeLimitExempt.foldl (fun types t => types.insert t) r.noLimitTypes := rfl
  obtain ⟨hreq, hnot⟩ := h.not_mem_of_new hd
  obtain ⟨hndr, hndn, hndt⟩ := h.nodup
  refine ⟨fun id => ?_, fun id => ?_, ?_, fun t => ?_, ?_, ?_, ?_⟩
  · rw [hds, flagged_concat, ← h.requiring]
    cases hc : d.contentDependent <;> simp [Registry.add, hc, or_comm]
  · rw [hds, flagged_concat, ← h.notRequiring]
    cases hc : d.contentDependent <;> simp [Registry.add, hc, or_comm]
  · rw [hds, List.filter_append, List.map_append, ← h.directories]
    cases hf : !d.contentDependent && d.indexesDirectories <;> simp [Registry.add, hf]
  · rw [hds, htypes, FileType.mem_foldl_insert, h.exempt]
    simp [or_and_right, exists_or]
  · cases hc : d.contentDependent with
    | true => simpa [Registry.add, hc] using ⟨hreq, hndr⟩
    | false => simpa [Registry.add, hc] using hndr
  · cases hc : d.contentDependent with
    | true => simpa [Registry.add, hc] using hndn
    | false => simpa [Registry.add, hc] using ⟨hnot, hndn⟩
  · rw [htypes]
    exact FileType.nodup_foldl_insert hndt

/-- a registry holds exactly these descriptors, in this order, and all its tables agree with them -/
structure Records (r : Registry) (ds : List IndexDescriptor) : Prop where
  descriptors : r.descriptors = ds
  ids_nodup : (ds.map (·.id)).Nodup
  position : ∀ id p, r.position? id = some p ↔ ∃ d, ds[p]? = some d ∧ d.id = id
  descriptor : ∀ id, r.descriptor? id = ds.find? fun d => d.id == id
  contains : ∀ id, r.contains id = ds.any fun d => d.id == id
  requiring : ∀ id, id ∈ r.requiringContent ↔ Flagged ds true id
  notRequiring : ∀ id, id ∈ r.notRequiringContent ↔ Flagged ds false id
  one_set : ∀ id, id ∈ ds.map (·.id) ↔ Xor (id ∈ r.requiringContent) (id ∈ r.notRequiringContent)
  task : ∀ id task, r.updateTask? id = some task ↔ task = ⟨id⟩ ∧ Flagged ds true id
  directories : r.forDirectories =
    (ds.filter fun d => !d.contentDependent && d.indexesDirectories).map (·.id)
  exempt : ∀ t, t ∈ r.noLimitTypes ↔ ∃ d ∈ ds, t ∈ d.sizeLimitExempt
  sets_nodup : r.requiringContent.Nodup ∧ r.notRequiringContent.Nodup ∧ r.noLimitTypes.Nodup

theorem Records.descriptor?_eq_some (h : r.Records ds) :
    r.descriptor? id = some d ↔ d ∈ ds ∧ d.id = id := by
  rw [h.descriptor]
  constructor
  · intro hd
    exact ⟨List.mem_of_find?_eq_some hd, by simpa using List.find?_some hd⟩
  · rintro ⟨hd, rfl⟩
    cases hf : ds.find? fun x => x.id == d.id with
    | none => simpa using List.find?_eq_none.mp hf d hd
    | some x =>
      have hid : x.id = d.id := by simpa using List.find?_some hf
      rw [List.inj_on_of_nodup_map h.ids_nodup (List.mem_of_find?_eq_some hf) hd hid]

theorem Records.indexed (h : r.Records ds) : r.Indexed where
  nodup := by
    rw [ids, h.descriptors]
    exact h.ids_nodup
  position id p := by
    rw [h.position, ids, h.descriptors, List.getElem?_map, Option.map_eq_some_iff]

theorem Records.isSome_descriptor? (h : r.Records ds) (id : IndexId) :
    (r.descriptor? id).isSome = r.contains id := by
  rw [Bool.eq_iff_iff, h.descriptor, h.contains, List.find?_isSome, List.any_eq_true]

theorem Classified.one_set (h : r.Classified) (hr : r.Indexed) (id : IndexId) :
    id ∈ r.ids ↔ Xor (id ∈ r.requiringContent) (id ∈ r.notRequiringContent) := by
  rw [h.requiring, h.notRequiring]
  constructor
  · intro hid
    obtain ⟨d, hd, rfl⟩ := List.mem_map.mp hid
    cases hc : d.contentDependent with
    | true =>
      have hflag : Flagged r.descriptors true d.id := ⟨d, hd, hc, rfl⟩
      exact .inl ⟨hflag, hflag.unique hr.nodup⟩
    | false =>
      have hflag : Flagged r.descriptors false d.id := ⟨d, hd, hc, rfl⟩
      exact .inr ⟨hflag, fun ht => ht.unique hr.nodup hflag⟩
  · rintro (⟨hflag, _⟩ | ⟨hflag, _⟩) <;> exact hflag.mem

theorem Indexed.descriptor?_eq (h : r.Indexed) (id : IndexId) :
    r.descriptor? id = r.descriptors.find? fun d => d.id == id := by
  cases hf : r.descriptors.find? fun d => d.id == id with
  | some d =>
    obtain rfl : d.id = id := by simpa using List.find?_some hf
    exact h.descriptor?_of_mem (List.mem_of_find?_eq_some hf)
  | none =>
    refine h.descriptor?_of_not_mem fun hid => ?_
    obtain ⟨d, hd, rfl⟩ := List.mem_map.mp hid
    simpa using List.find?_eq_none.mp hf d hd

theorem Indexed.records (h : r.Indexed) (ht : r.Tasked) (hs : r.Classified) :
    r.Records r.descriptors where
  descriptors := rfl
  ids_nodup := h.nodup
  position id p := by rw [h.position, ids, List.getElem?_map, Option.map_eq_some_iff]
  descriptor := h.descriptor?_eq
  contains id := by
    rw [Bool.eq_iff_iff, h.contains_iff, ids, List.mem_map, List.any_eq_true]
    simp
  requiring := hs.requiring
  notRequiring := hs.notRequiring
  one_set := hs.one_set h
  task := ht
  directories := hs.directories
  exempt := hs.exempt
  sets_nodup := hs.nodup

end Registry

namespace RegistryBuilder

variable {b : RegistryBuilder} {ds : List IndexDescriptor} {d : IndexDescriptor} {skip : Bool}

/-- the descriptors that are recorded: the first of every id, in order, without the index of file
names where that is left out -/
def firsts (skip : Bool) : List IndexDescriptor → List IndexDescriptor
  | [] => []
  | d :: rest =>
    if skip && d.id.isFilename then firsts skip rest
    else d :: (firsts skip rest).filter fun x => x.id != d.id

def kept (skip : Bool) (ds : List IndexDescriptor) : List IndexDescriptor :=
  ds.filter fun d => !(skip && d.id.isFilename)

/-- whether a descriptor that comes after others is recorded -/
def isRecorded (skip : Bool) (before : List IndexDescriptor) (d : IndexDescriptor) : Bool :=
  !(skip && d.id.isFilename) && before.all fun x => x.id != d.id

/-- what a descriptor that comes after others is answered -/
def answer (skip : Bool) (before : List IndexDescriptor) (d : IndexDescriptor) :
    Except BuildError Unit :=
  if !(skip && d.id.isFilename) && before.any fun x => x.id == d.id then
    .error (.duplicateIndex d.id)
  else .ok ()

theorem mem_firsts_ids {id : IndexId} :
    id ∈ (firsts skip ds).map (·.id) ↔ (skip && id.isFilename) = false ∧ id ∈ ds.map (·.id) := by
  induction ds with
  | nil => simp [firsts]
  | cons d rest ih =>
    rw [firsts, List.map_cons, List.mem_cons]
    cases hs : skip && d.id.isFilename with
    | true =>
      rw [if_pos rfl, ih]
      refine and_congr_right fun hid => (or_iff_right ?_).symm
      rintro rfl
      cases hid.symm.trans hs
    | false =>
      have hfilter : id ∈ ((firsts skip rest).filter fun x => x.id != d.id).map (·.id) ↔
          id ∈ (firsts skip rest).map (·.id) ∧ id ≠ d.id := by
        simp only [List.mem_map, List.mem_filter, bne_iff_ne]
        constructor
        · rintro ⟨x, ⟨hx, hne⟩, rfl⟩
          exact ⟨⟨x, hx, rfl⟩, hne⟩
        · rintro ⟨⟨x, hx, rfl⟩, hne⟩
          exact ⟨x, ⟨hx, hne⟩, rfl⟩
      rw [if_neg Bool.false_ne_true, List.map_cons, List.mem_cons, hfilter, ih]
      by_cases hid : id = d.id
      · subst hid
        simp [hs]
      · simp [hid]

theorem firsts_of_nodup (h : ((kept skip ds).map (·.id)).Nodup) :
    firsts skip ds = kept skip ds := by
  induction ds with
  | nil => rfl
  | cons d rest ih =>
    cases hs : skip && d.id.isFilename with
    | true =>
      have hcons : kept skip (d :: rest) = kept skip rest := List.filter_cons_of_neg (by simp [hs])
      rw [hcons] at h ⊢
      rw [firsts, if_pos hs, ih h]
    | false =>
      have hcons : kept skip (d :: rest) = d :: kept skip rest :=
        List.filter_cons_of_pos (by simp [hs])
      rw [hcons] at h ⊢
      obtain ⟨hnew, hrest⟩ := List.nodup_cons.mp h
      rw [firsts, if_neg (by simp [hs]), ih hrest]
      refine congrArg (d :: ·) (List.filter_eq_self.mpr fun x hx => bne_iff_ne.mpr fun heq => ?_)
      exact hnew (List.mem_map.mpr ⟨x, hx, heq⟩)

theorem firsts_concat (skip : Bool) (before : List IndexDescriptor) (d : IndexDescriptor) :
    firsts skip (before ++ [d]) =
      firsts skip before ++ if isRecorded skip before d then [d] else [] := by
  induction before with
  | nil => cases hs : skip && d.id.isFilename <;> simp [firsts, isRecorded, hs]
  | cons x before ih =>
    have hcons : isRecorded skip (x :: before) d = (x.id != d.id && isRecorded skip before d) := by
      simp [isRecorded, Bool.and_left_comm]
    rw [List.cons_append, firsts, firsts, ih, hcons]
    cases hx : skip && x.id.isFilename with
    | true =>
      -- a descriptor that is passed over hides no other one of its id
      cases hne : x.id != d.id with
      | true => simp
      | false =>
        obtain heq : x.id = d.id := by simpa using hne
        simp [isRecorded, ← heq, hx]
    | false =>
      rw [if_neg Bool.false_ne_true, if_neg Bool.false_ne_true, List.filter_append,
        List.cons_append]
      cases isRecorded skip before d <;> cases hne : x.id != d.id <;> simp_all [bne_comm]

def empty (skip : Bool) : RegistryBuilder := { skipFilenameIndex := skip }

/-- the builder of a history: it has recorded the first descriptors, and nothing else -/
structure Follows (b : RegistryBuilder) (skip : Bool) (before : List IndexDescriptor) : Prop where
  skips : b.skipFilenameIndex = skip
  descriptors : b.registry.descriptors = firsts skip before
  indexed : b.registry.Indexed
  tasked : b.registry.Tasked
  classified : b.registry.Classified

theorem follows_empty (skip : Bool) : (empty skip).Follows skip [] :=
  ⟨rfl, rfl, Registry.indexed_empty, Registry.tasked_empty, Registry.classified_empty⟩

theorem Follows.records {before : List IndexDescriptor} (h : b.Follows skip before) :
    b.registry.Records (firsts skip before) :=
  h.descriptors ▸ h.indexed.records h.tasked h.classified

/-- what is not passed over is refused exactly if it was there before -/
theorem Follows.contains {before : List IndexDescriptor} (h : b.Follows skip before)
    (hd : (skip && d.id.isFilename) = false) :
    b.registry.contains d.id = before.any fun x => x.id == d.id := by
  rw [Bool.eq_iff_iff, h.indexed.contains_iff, Registry.ids, h.descriptors, mem_firsts_ids,
    and_iff_right hd, List.mem_map, List.any_eq_true]
  simp

theorem isRecorded_of_refused {before : List IndexDescriptor} {e : BuildError}
    (h : answer skip before d = .error e) : isRecorded skip before d = false := by
  unfold answer at h
  split at h
  · next hin =>
    obtain ⟨_, hin⟩ := Bool.and_eq_true_iff.mp hin
    obtain ⟨x, hx, heq⟩ := List.any_eq_true.mp hin
    refine Bool.and_eq_false_iff.mpr (.inr (List.all_eq_false.mpr ⟨x, hx, ?_⟩))
    simpa using heq
  · cases h

def goOn (b : RegistryBuilder) (before : List IndexDescriptor) (d : IndexDescriptor) :
    RegistryBuilder :=
  if isRecorded b.skipFilenameIndex before d then { b with registry := b.registry.add d } else b

/-- **One registration.**  The answer depends on the history alone, and only a descriptor that is
recorded changes the builder. -/
theorem Follows.register {before : List IndexDescriptor} (h : b.Follows skip before)
    (d : IndexDescriptor) :
    b.register d = (answer skip before d).map fun _ => b.goOn before d := by
  have hskips : b.skips d = (skip && d.id.isFilename) := by rw [RegistryBuilder.skips, h.skips]
  rw [RegistryBuilder.register, hskips, goOn, h.skips]
  cases hs : skip && d.id.isFilename with
  | true => simp [answer, isRecorded, hs, Except.map]
  | false =>
    have hall : (before.all fun x => x.id != d.id) = !before.any fun x => x.id == d.id := by
      rw [List.not_any_eq_all_not]
      rfl
    rw [if_neg Bool.false_ne_true, h.contains hs]
    cases hin : before.any fun x => x.id == d.id <;>
      simp [answer, isRecorded, hs, hall, hin, Except.map]

theorem Follows.registerEach {before : List IndexDescriptor} (h : b.Follows skip before)
    (d : IndexDescriptor) : b.registerEach [d] = (b.goOn before d, [answer skip before d]) := by
  have hone := h.register d
  cases ha : answer skip before d with
  | ok => simp [RegistryBuilder.registerEach, hone, ha, Except.map]
  | error e =>
    have hsame : b.goOn before d = b := by
      rw [goOn, h.skips, isRecorded_of_refused ha]
      rfl
    simp [RegistryBuilder.registerEach, hone, ha, Except.map, hsame]

theorem Follows.goOn {before : List IndexDescriptor} (h : b.Follows skip before)
    (d : IndexDescriptor) : (b.goOn before d).Follows skip (before ++ [d]) := by
  have hconcat := firsts_concat skip before d
  rw [RegistryBuilder.goOn, h.skips]
  cases hd : isRecorded skip before d with
  | false =>
    rw [hd, if_neg Bool.false_ne_true, List.append_nil] at hconcat
    exact ⟨h.skips, h.descriptors.trans hconcat.symm, h.indexed, h.tasked, h.classified⟩
  | true =>
    rw [hd, if_pos rfl] at hconcat
    have hnew : d.id ∉ b.registry.ids := by
      rw [Registry.ids, h.descriptors, mem_firsts_ids]
      rintro ⟨_, hid⟩
      obtain ⟨x, hx, heq⟩ := List.mem_map.mp hid
      have hne := List.all_eq_true.mp (Bool.and_eq_true_iff.mp hd).2 x hx
      exact bne_iff_ne.mp hne heq
    have hfree : b.registry.contains d.id = false := by
      rwa [← Bool.not_eq_true, h.indexed.contains_iff]
    rw [if_pos rfl]
    refine ⟨rfl, ?_, h.indexed.add hfree, h.tasked.add d, h.classified.add hnew⟩
    rw [hconcat, ← h.descriptors]
    rfl

theorem registerEach_append (b : RegistryBuilder) (before rest : List IndexDescriptor) :
    b.registerEach (before ++ rest) =
      (((b.registerEach before).1.registerEach rest).1,
        (b.registerEach before).2 ++ ((b.registerEach before).1.registerEach rest).2) := by
  induction before generalizing b with
  | nil => rfl
  | cons d before ih =>
    rw [List.cons_append, RegistryBuilder.registerEach, RegistryBuilder.registerEach]
    cases b.register d <;> simp only [ih, List.cons_append]

/-- a history without a refusal, which is all that a build goes on with -/
theorem registerEach_of_registerAll {b b' : RegistryBuilder} (h : b.registerAll ds = .ok b') :
    (b.registerEach ds).1 = b' := by
  induction ds generalizing b with
  | nil =>
    cases h
    rfl
  | cons d ds ih =>
    rw [registerAll] at h
    rw [RegistryBuilder.registerEach]
    cases hd : b.register d with
    | ok b₁ =>
      rw [hd] at h
      exact ih h
    | error e =>
      rw [hd] at h
      cases h

theorem follows_registerEach (skip : Bool) (ds : List IndexDescriptor) :
    ((empty skip).registerEach ds).1.Follows skip ds := by
  induction ds using List.reverseRecOn with
  | nil => exact follows_empty skip
  | append_singleton before d ih =>
    rw [registerEach_append, ih.registerEach]
    exact ih.goOn d

theorem registerEach_concat (skip : Bool) (before : List IndexDescriptor) (d : IndexDescriptor) :
    (empty skip).registerEach (before ++ [d]) =
      (((empty skip).registerEach before).1.goOn before d,
        ((empty skip).registerEach before).2 ++ [answer skip before d]) := by
  rw [registerEach_append, (follows_registerEach skip before).registerEach]

theorem length_answers (b : RegistryBuilder) (ds : List IndexDescriptor) :
    (b.registerEach ds).2.length = ds.length := by
  induction ds generalizing b with
  | nil => rfl
  | cons d ds ih =>
    rw [RegistryBuilder.registerEach]
    cases b.register d <;> simp [ih]

theorem getElem?_answers (skip : Bool) (before after : List IndexDescriptor) (d : IndexDescriptor) :
    ((empty skip).registerEach (before ++ d :: after)).2[before.length]? =
      some (answer skip before d) := by
  have hlen := length_answers (empty skip) before
  have hsplit : before ++ d :: after = before ++ [d] ++ after := by simp
  rw [hsplit, registerEach_append, registerEach_concat, List.getElem?_append_left (by simp [hlen]),
    ← hlen, List.getElem?_concat_length]

/-- **A history of registrations.**  Descriptors are registered one after the other, going on after
refused ones.  The registry holds the first descriptor of every id, in order, without the index of
file names where that is left out, and all its tables agree with that list.  Every occurrence of the
index that is left out is answered with success, every other repeated id is refused by name, and
neither changes the builder. -/
theorem registration_history (skip : Bool) (ds : List IndexDescriptor) :
    ((empty skip).registerEach ds).1.finish.Records (firsts skip ds) ∧
    ((empty skip).registerEach ds).2.length = ds.length ∧
    ∀ before d after, ds = before ++ d :: after →
      ((empty skip).registerEach ds).2[before.length]? = some (answer skip before d) ∧
      (isRecorded skip before d = false →
        ((empty skip).registerEach (before ++ [d])).1 = ((empty skip).registerEach before).1) := by
  refine ⟨(follows_registerEach skip ds).records, length_answers _ ds, ?_⟩
  rintro before d after rfl
  refine ⟨getElem?_answers skip before after d, fun hd => ?_⟩
  rw [registerEach_concat, goOn, (follows_registerEach skip before).skips, hd]
  rfl

/-- the index of file names is left out, and the second descriptor of an index is refused -/
example :
    let ds : List IndexDescriptor :=
      [{ id := ⟨"words", 2⟩ }, { id := ⟨filenameIndexName, 1⟩ }, { id := ⟨"words", 2⟩, version := 7 }]
    ((empty true).registerEach ds).1.finish.ids = [⟨"words", 2⟩] ∧
      ((empty true).registerEach ds).2 = [.ok (), .ok (), .error (.duplicateIndex ⟨"words", 2⟩)] :=
  ⟨rfl, rfl⟩

end RegistryBuilder

theorem Genesis.register_eq {settings : IndexingSettings} {ds : List IndexDescriptor} {r : Registry}
    (h : Genesis.register settings ds = .ok r) :
    r = ((RegistryBuilder.empty settings.skipFilenameIndex).registerEach ds).1.finish := by
  rw [Genesis.register] at h
  split at h
  · next b hb =>
    cases h
    exact congrArg RegistryBuilder.finish (RegistryBuilder.registerEach_of_registerAll hb).symm
  · cases h

end IndexCoordinator
