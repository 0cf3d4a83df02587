import IndexCoordinator.Evaluator
import IndexCoordinator.Proofs.Registry.History

/-!
# A lookup is one pass over the recorded descriptors

An evaluator takes a directory to one list of indexes and any other file to another, which it finds by
type or makes on the spot, and it asks predicates at different places.  What comes out is the same as
if it went through the recorded descriptors in order: those that the file is offered to are kept, and
their predicates are asked in turn until one panics.

* `IndexDescriptor.offered`, `IndexDescriptor.pass`   that pass, in two parts;
* `IndexDescriptor.notes_pass`, `IndexDescriptor.outcome_pass`   which predicates it evaluates, and
                                           how it ends;
* `Trial.select_eq_pass`                   a selection from a list that stands for descriptors;
* `Evaluator.requiredIndexes_ofRegistry`   both kinds of lookup are this pass;
* `Evaluator.ofRegistry_exchange`          making an evaluator carries predicates along, unasked;
* `Evaluator.required_in_one_pass`         what a lookup answers, notes and depends on.
-/

namespace IndexCoordinator

def Outcome.panic? {α : Type} : Outcome α → Option PanicPayload
  | .returned _ => none
  | .panicked p => some p

namespace InputFilter

def admits : InputFilter → FileType → Bool
  | .any, _ => true
  | .fileTypes types, t => types.contains t
  | .fileTypesAnd types _, t => types.contains t
  | .custom _, _ => true

def predicate? : InputFilter → Option FilePredicate
  | .any => none
  | .fileTypes _ => none
  | .fileTypesAnd _ accept => some accept
  | .custom accept => some accept

/-- ask the predicate of a filter; one without a predicate takes every file -/
def ask (f : InputFilter) (file : IndexedFile) : Trial Bool :=
  match f.predicate? with
  | some accept => accept file
  | none => pure true

theorem classify_eq (f : InputFilter) (t : FileType) :
    f.classify t = if f.admits t then f.predicate?.elim .always .perFile else .never := by
  cases f <;> simp [classify, admits, predicate?]

theorem accepts_eq (f : InputFilter) (file : IndexedFile) :
    f.accepts file = if f.admits file.fileType then f.ask file else pure false := by
  rw [accepts, classify_eq, ask]
  cases f.admits file.fileType with
  | false => rfl
  | true => cases f.predicate? <;> rfl

end InputFilter

namespace IndexDescriptor

/-- whether an index is offered a file before any predicate is asked: a directory goes to indexes of
metadata that take directories, a file that is too large only to indexes of metadata, and both only
where the filter takes their type -/
def isOffered (limit : Nat) (exempt : Bool) (file : IndexedFile) (d : IndexDescriptor) : Bool :=
  (if file.isDirectory then !d.contentDependent && d.indexesDirectories
    else !(d.contentDependent && decide (limit < file.length) && !exempt)) &&
  d.inputFilter.admits file.fileType

/-- the indexes that are offered a file, in order; a type that one index exempts from the limit is
exempt for all -/
def offered (limit : Nat) (file : IndexedFile) (ds : List IndexDescriptor) : List IndexDescriptor :=
  ds.filter (isOffered limit (ds.any fun d => d.sizeLimitExempt.contains file.fileType) file)

/-- the pass over the indexes that are offered a file: each predicate is asked in turn -/
def pass (file : IndexedFile) : List IndexDescriptor → Trial (List IndexId)
  | [] => pure []
  | d :: rest => do
    let keep ← d.inputFilter.ask file
    let ids ← pass file rest
    pure (if keep then d.id :: ids else ids)

def answers (file : IndexedFile) (d : IndexDescriptor) : Bool :=
  (d.inputFilter.ask file).outcome.panic?.isNone

/-- the indexes whose predicates are evaluated: all that have one, up to the first that panics -/
def evaluated (file : IndexedFile) (ds : List IndexDescriptor) : List IndexDescriptor :=
  let asked := ds.filter fun d => d.inputFilter.predicate?.isSome
  asked.takeWhile (answers file) ++ (asked.dropWhile (answers file)).take 1

/-- the panic of the first predicate that panics -/
def firstPanic? (file : IndexedFile) (ds : List IndexDescriptor) : Option PanicPayload :=
  ds.findSome? fun d => (d.inputFilter.ask file).outcome.panic?

/-- whether the predicate of an index, if it has one, accepts a file -/
def takes (file : IndexedFile) (d : IndexDescriptor) : Bool :=
  decide ((d.inputFilter.ask file).outcome = .returned true)

variable {file : IndexedFile} {d : IndexDescriptor} {ds : List IndexDescriptor}

theorem evaluated_cons (file : IndexedFile) (d : IndexDescriptor) (ds : List IndexDescriptor) :
    evaluated file (d :: ds) =
      if d.inputFilter.predicate?.isSome then
        d :: if answers file d then evaluated file ds else []
      else evaluated file ds := by
  unfold evaluated
  cases hp : d.inputFilter.predicate?.isSome <;> cases ha : answers file d <;> simp [hp, ha]

theorem pass_of_returned {notes : List String} {keep : Bool}
    (h : d.inputFilter.ask file = ⟨notes, .returned keep⟩) (ds : List IndexDescriptor) :
    pass file (d :: ds) = ⟨notes ++ (pass file ds).notes,
      (pass file ds).outcome.map fun ids => if keep then d.id :: ids else ids⟩ := by
  rw [pass, h, Trial.bind_returned]
  obtain ⟨rest, ids | p⟩ := pass file ds
  · simp [Trial.bind_returned, Outcome.map]
  · simp [Trial.bind_panicked, Outcome.map]

theorem pass_of_panicked {notes : List String} {p : PanicPayload}
    (h : d.inputFilter.ask file = ⟨notes, .panicked p⟩) (ds : List IndexDescriptor) :
    pass file (d :: ds) = ⟨notes, .panicked p⟩ := by
  rw [pass, h, Trial.bind_panicked]

/-- **The notes of a pass are those of the predicates that are evaluated.** -/
theorem notes_pass (file : IndexedFile) (ds : List IndexDescriptor) :
    (pass file ds).notes = (evaluated file ds).flatMap fun d => (d.inputFilter.ask file).notes := by
  induction ds with
  | nil => rfl
  | cons d ds ih =>
    rw [evaluated_cons]
    cases hask : d.inputFilter.ask file with
    | mk notes outcome =>
    cases outcome with
    | panicked p =>
      have hsome : d.inputFilter.predicate?.isSome = true := by
        cases hp : d.inputFilter.predicate? with
        | some accept => rfl
        | none =>
          rw [InputFilter.ask, hp] at hask
          cases hask
      rw [pass_of_panicked hask, hsome]
      simp [answers, hask, Outcome.panic?]
    | returned keep =>
      rw [pass_of_returned hask, ih]
      cases hp : d.inputFilter.predicate? with
      | some accept => simp [answers, hask, Outcome.panic?]
      | none =>
        rw [InputFilter.ask, hp] at hask
        cases hask
        rfl

/-- **A pass ends with the first panic**, and without one it keeps what the predicates accept. -/
theorem outcome_pass (file : IndexedFile) (ds : List IndexDescriptor) :
    (pass file ds).outcome = match firstPanic? file ds with
      | some p => .panicked p
      | none => .returned ((ds.filter (takes file)).map (·.id)) := by
  induction ds with
  | nil => rfl
  | cons d ds ih =>
    cases hask : d.inputFilter.ask file with
    | mk notes outcome =>
    cases outcome with
    | panicked p => simp [pass_of_panicked hask, firstPanic?, hask, Outcome.panic?]
    | returned keep =>
      have hpanic : firstPanic? file (d :: ds) = firstPanic? file ds := by
        simp [firstPanic?, hask, Outcome.panic?]
      have htakes : takes file d = keep := by simp [takes, hask]
      rw [pass_of_returned hask, hpanic, ih, List.filter_cons, htakes]
      cases firstPanic? file ds <;> cases keep <;> rfl

theorem sublist_of_pass {ids : List IndexId} (h : (pass file ds).outcome = .returned ids) :
    ids.Sublist (ds.map (·.id)) := by
  rw [outcome_pass] at h
  split at h
  · cases h
  · cases h
    exact List.filter_sublist.map _

end IndexDescriptor

namespace Trial

variable {α β : Type} {check : α → Trial Bool} {a : α}

theorem bind_pure (x : Trial α) (f : α → β) :
    (do let a ← x; pure (f a)) = (⟨x.notes, x.outcome.map f⟩ : Trial β) := by
  obtain ⟨notes, a | p⟩ := x
  · rw [bind_returned]
    simp [Outcome.map]
  · rw [bind_panicked]
    rfl

theorem select_of_returned {notes : List String} {keep : Bool}
    (h : check a = ⟨notes, .returned keep⟩) (l : List α) :
    select check (a :: l) = ⟨notes ++ (select check l).notes,
      (select check l).outcome.map fun kept => if keep then a :: kept else kept⟩ := by
  rw [select, h, bind_returned, bind_pure]

theorem select_of_panicked {notes : List String} {p : PanicPayload}
    (h : check a = ⟨notes, .panicked p⟩) (l : List α) :
    select check (a :: l) = ⟨notes, .panicked p⟩ := by
  rw [select, h, bind_panicked]

/-- **A selection is a pass.**  Let members stand for descriptors, those of descriptors that are
offered the file with the check of their filter, all others with a check that refuses. -/
theorem select_eq_pass {file : IndexedFile} {offers : IndexDescriptor → Bool}
    {member? : IndexDescriptor → Option α} {name : α → IndexId}
    (hnone : ∀ d, member? d = none → offers d = false)
    (hsome : ∀ d a, member? d = some a → name a = d.id ∧
      check a = if offers d then d.inputFilter.ask file else pure false)
    (ds : List IndexDescriptor) :
    (do let kept ← select check (ds.filterMap member?); pure (kept.map name)) =
      IndexDescriptor.pass file (ds.filter offers) := by
  induction ds with
  | nil => rfl
  | cons d ds ih =>
    rw [bind_pure] at ih ⊢
    cases hm : member? d with
    | none => rw [List.filterMap_cons_none hm, List.filter_cons_of_neg (by simp [hnone d hm]), ih]
    | some a =>
      obtain ⟨hname, hcheck⟩ := hsome d a hm
      rw [List.filterMap_cons_some hm]
      cases ho : offers d with
      | false =>
        rw [ho, if_neg Bool.false_ne_true] at hcheck
        rw [List.filter_cons_of_neg (by simp [ho]), ← ih, select_of_returned hcheck]
        cases (select check (ds.filterMap member?)).outcome <;> rfl
      | true =>
        rw [ho, if_pos rfl] at hcheck
        rw [List.filter_cons_of_pos (by simp [ho])]
        cases hask : d.inputFilter.ask file with
        | mk notes outcome =>
        rw [hask] at hcheck
        cases outcome with
        | panicked p =>
          rw [select_of_panicked hcheck, IndexDescriptor.pass_of_panicked hask]
          rfl
        | returned keep =>
          rw [select_of_returned hcheck, IndexDescriptor.pass_of_returned hask, ← ih]
          cases (select check (ds.filterMap member?)).outcome <;> cases keep <;>
            simp [Outcome.map, hname]

end Trial

/-! ## the two ways of a lookup -/

namespace TypeIndexes

def candidate? (t : FileType) (d : IndexDescriptor) : Option Candidate :=
  if d.inputFilter.admits t then some ⟨d.id, d.contentDependent, d.inputFilter.predicate?⟩ else none

theorem foldl_add (t : FileType) (ds : List IndexDescriptor) (acc : TypeIndexes) :
    ds.foldl (add t) acc = ⟨acc.candidates ++ ds.filterMap (candidate? t),
      acc.excluded ++ (ds.filter fun d => !d.inputFilter.admits t).map (·.id)⟩ := by
  induction ds generalizing acc with
  | nil => simp
  | cons d ds ih =>
    rw [List.foldl_cons, ih, add, InputFilter.classify_eq]
    cases ha : d.inputFilter.admits t with
    | false => simp [candidate?, ha]
    | true => cases hp : d.inputFilter.predicate? <;> simp [candidate?, ha, hp]

theorem compute_eq (r : Registry) (t : FileType) :
    compute r t = ⟨r.descriptors.filterMap (candidate? t),
      (r.descriptors.filter fun d => !d.inputFilter.admits t).map (·.id)⟩ := by
  simp [compute, foldl_add]

end TypeIndexes

namespace Evaluator

variable {r : Registry} {ds : List IndexDescriptor} {types : List FileType} {limit : Nat}

/-- **What was computed in advance is what is computed at the lookup.** -/
theorem forType_ofRegistry (r : Registry) (types : List FileType) (limit : Nat) (t : FileType) :
    (ofRegistry r types limit).forType t = TypeIndexes.compute r t := by
  rw [forType, ofRegistry]
  by_cases ht : t ∈ types.eraseDups
  · rw [List.lookup_graph _ ht]
    rfl
  · have hnone : (types.eraseDups.map fun t => (t, TypeIndexes.compute r t)).lookup t = none := by
      refine List.lookup_eq_none_iff.mpr fun e he => ?_
      obtain ⟨x, hx, rfl⟩ := List.mem_map.mp he
      exact bne_iff_ne.mpr fun heq => ht (heq ▸ hx)
    rw [hnone]
    rfl

def directory? (d : IndexDescriptor) : Option (IndexId × InputFilter) :=
  if !d.contentDependent && d.indexesDirectories then some (d.id, d.inputFilter) else none

theorem directories_ofRegistry (h : r.Records ds) (types : List FileType) (limit : Nat) :
    (ofRegistry r types limit).directories = ds.filterMap directory? := by
  have hfind (d : IndexDescriptor) (hd : d ∈ ds) : r.descriptor? d.id = some d :=
    h.descriptor?_eq_some.mpr ⟨hd, rfl⟩
  have hof : (ofRegistry r types limit).directories =
      r.forDirectories.filterMap fun id => (r.descriptor? id).map fun d => (id, d.inputFilter) := rfl
  rw [hof, h.directories, List.filterMap_map, List.filterMap_filter]
  refine List.filterMap_congr fun d hd => ?_
  simp [directory?, hfind d hd]

theorem contains_noLimitTypes (h : r.Records ds) (t : FileType) :
    r.noLimitTypes.contains t = ds.any fun d => d.sizeLimitExempt.contains t := by
  rw [Bool.eq_iff_iff, List.contains_iff_mem, h.exempt, List.any_eq_true]
  simp only [List.contains_iff_mem]

theorem isTooLarge_ofRegistry (h : r.Records ds) (types : List FileType) (limit : Nat)
    (file : IndexedFile) :
    (ofRegistry r types limit).isTooLarge file = (decide (limit < file.length) &&
      !ds.any fun d => d.sizeLimitExempt.contains file.fileType) := by
  rw [isTooLarge, ofRegistry, contains_noLimitTypes h]

/-- **A lookup is one pass.** -/
theorem requiredIndexes_ofRegistry (h : r.Records ds) (types : List FileType) (limit : Nat)
    (file : IndexedFile) :
    (ofRegistry r types limit).requiredIndexes file =
      IndexDescriptor.pass file (IndexDescriptor.offered limit file ds) := by
  rw [requiredIndexes, directories_ofRegistry h, forType_ofRegistry, TypeIndexes.compute_eq,
    h.descriptors, isTooLarge_ofRegistry h]
  generalize hexempt : (ds.any fun d => d.sizeLimitExempt.contains file.fileType) = exempt
  rw [IndexDescriptor.offered, hexempt]
  cases hdir : file.isDirectory with
  | true =>
    refine Trial.select_eq_pass (fun d hd => ?_) (fun d a hd => ?_) ds
    · have hno : (!d.contentDependent && d.indexesDirectories) = false := by
        simpa [directory?] using hd
      simp [IndexDescriptor.isOffered, hdir, hno]
    · rw [directory?] at hd
      split at hd
      · next hyes =>
        cases hd
        simp [IndexDescriptor.isOffered, hdir, hyes, InputFilter.accepts_eq]
      · cases hd
  | false =>
    refine Trial.select_eq_pass (fun d hd => ?_) (fun d a hd => ?_) ds
    · have hno : d.inputFilter.admits file.fileType = false := by
        simpa [TypeIndexes.candidate?] using hd
      simp [IndexDescriptor.isOffered, hno]
    · rw [TypeIndexes.candidate?] at hd
      split at hd
      · next hyes =>
        cases hd
        refine ⟨rfl, ?_⟩
        have hlarge : IndexDescriptor.isOffered limit exempt file d =
            !(decide (limit < file.length) && !exempt && d.contentDependent) := by
          simp [IndexDescriptor.isOffered, hdir, hyes, Bool.or_comm, Bool.or_left_comm]
        rw [hlarge, admits, InputFilter.ask]
        cases decide (limit < file.length) && !exempt && d.contentDependent <;>
          cases d.inputFilter.predicate? <;> rfl
      · cases hd

end Evaluator

/-! ## predicates are carried, not asked -/

section
variable (σ : FilePredicate → FilePredicate)

def InputFilter.exchange : InputFilter → InputFilter
  | .any => .any
  | .fileTypes types => .fileTypes types
  | .fileTypesAnd types accept => .fileTypesAnd types (σ accept)
  | .custom accept => .custom (σ accept)

def IndexDescriptor.exchange (d : IndexDescriptor) : IndexDescriptor :=
  { d with inputFilter := d.inputFilter.exchange σ }

def Registry.exchange (r : Registry) : Registry :=
  { r with descriptors := r.descriptors.map (IndexDescriptor.exchange σ) }

def RegistryBuilder.exchange (b : RegistryBuilder) : RegistryBuilder :=
  { b with registry := b.registry.exchange σ }

def TypeIndexes.exchange (x : TypeIndexes) : TypeIndexes :=
  { x with candidates := x.candidates.map fun c => { c with check := c.check.map σ } }

def Evaluator.exchange (e : Evaluator) : Evaluator where
  registry := e.registry.exchange σ
  fileSizeLimit := e.fileSizeLimit
  directories := e.directories.map fun d => (d.1, d.2.exchange σ)
  byFileType := e.byFileType.map fun x => (x.1, x.2.exchange σ)

theorem InputFilter.admits_exchange (f : InputFilter) (t : FileType) :
    (f.exchange σ).admits t = f.admits t := by cases f <;> rfl

theorem InputFilter.predicate?_exchange (f : InputFilter) :
    (f.exchange σ).predicate? = f.predicate?.map σ := by cases f <;> rfl

theorem Registry.add_exchange (r : Registry) (d : IndexDescriptor) :
    (r.exchange σ).add (d.exchange σ) = (r.add d).exchange σ := by
  simp only [Registry.add, Registry.exchange, List.map_append, List.length_map]
  rfl

theorem RegistryBuilder.register_exchange (b : RegistryBuilder) (d : IndexDescriptor) :
    (b.exchange σ).register (d.exchange σ) = (b.register d).map (RegistryBuilder.exchange σ) := by
  have hcontains : (b.exchange σ).registry.contains (d.exchange σ).id = b.registry.contains d.id :=
    rfl
  have hskips : (b.exchange σ).skips (d.exchange σ) = b.skips d := rfl
  rw [register, register, hskips, hcontains]
  cases b.skips d with
  | true => rfl
  | false =>
    cases b.registry.contains d.id with
    | true => rfl
    | false => simp [RegistryBuilder.exchange, Registry.add_exchange, Except.map]

theorem RegistryBuilder.registerEach_exchange (b : RegistryBuilder) (ds : List IndexDescriptor) :
    ((b.exchange σ).registerEach (ds.map (IndexDescriptor.exchange σ))).1 =
      (b.registerEach ds).1.exchange σ := by
  induction ds generalizing b with
  | nil => rfl
  | cons d ds ih =>
    rw [List.map_cons, registerEach, registerEach, register_exchange]
    cases b.register d with
    | ok b' => exact ih b'
    | error e => exact ih b

theorem TypeIndexes.compute_exchange (r : Registry) (t : FileType) :
    compute (r.exchange σ) t = (compute r t).exchange σ := by
  have hcandidate (d : IndexDescriptor) : candidate? t (d.exchange σ) =
      (candidate? t d).map fun c => { c with check := c.check.map σ } := by
    simp only [candidate?, IndexDescriptor.exchange, InputFilter.admits_exchange,
      InputFilter.predicate?_exchange]
    split <;> rfl
  have hadmits (d : IndexDescriptor) :
      (d.exchange σ).inputFilter.admits t = d.inputFilter.admits t := d.inputFilter.admits_exchange σ t
  rw [compute_eq, compute_eq, exchange, Registry.exchange]
  simp only [List.filterMap_map, List.filter_map, List.map_map, List.map_filterMap,
    Function.comp_def, hcandidate, hadmits]
  rfl

/-- **Making an evaluator asks no predicate**: other predicates in the descriptors come out as other
predicates in the same evaluator. -/
theorem Evaluator.ofRegistry_exchange (r : Registry) (types : List FileType) (limit : Nat) :
    ofRegistry (r.exchange σ) types limit = (ofRegistry r types limit).exchange σ := by
  have hdescriptor (id : IndexId) :
      (r.exchange σ).descriptor? id = (r.descriptor? id).map (IndexDescriptor.exchange σ) := by
    simp only [Registry.descriptor?, Registry.exchange, Registry.position?, List.getElem?_map,
      Option.map_bind]
    rfl
  simp only [ofRegistry, exchange, TypeIndexes.compute_exchange, List.map_map, Function.comp_def,
    hdescriptor, Option.map_map, List.map_filterMap]
  rfl

/-- a view of a type shows no predicate -/
theorem Evaluator.requiredForType_exchange (r : Registry) (types : List FileType) (limit : Nat)
    (t : FileType) : (ofRegistry (r.exchange σ) types limit).requiredForType t =
      (ofRegistry r types limit).requiredForType t := by
  rw [requiredForType, requiredForType, forType_ofRegistry, forType_ofRegistry,
    TypeIndexes.compute_exchange, TypeIndexes.exchange]
  simp

end

namespace Evaluator

/-- the evaluator of what a history of registrations has recorded -/
def ofDescriptors (skip : Bool) (ds : List IndexDescriptor) (types : List FileType) (limit : Nat) :
    Evaluator :=
  ofRegistry ((RegistryBuilder.empty skip).registerEach ds).1.finish types limit

theorem records_ofDescriptors (skip : Bool) (ds : List IndexDescriptor) (types : List FileType)
    (limit : Nat) :
    (ofDescriptors skip ds types limit).registry.Records (RegistryBuilder.firsts skip ds) :=
  (RegistryBuilder.follows_registerEach skip ds).records

open IndexDescriptor (offered pass evaluated firstPanic? takes)

/-- **Required indexes are found in one pass.**  A lookup goes through the recorded descriptors in
order and keeps those that the file is offered to; their predicates are asked one after the other,
each once, up to the first that panics, and the panic is then the outcome.  So notes and outcome do
not depend on the types that were computed in advance, no index is required twice, and neither the
making of an evaluator nor a view of a type asks any predicate. -/
theorem required_in_one_pass (skip : Bool) (ds : List IndexDescriptor) (types : List FileType)
    (limit : Nat) (file : IndexedFile) :
    let e := ofDescriptors skip ds types limit
    let kept := offered limit file (RegistryBuilder.firsts skip ds)
    e.requiredIndexes file = pass file kept ∧
    (e.requiredIndexes file).notes =
      (evaluated file kept).flatMap (fun d => (d.inputFilter.ask file).notes) ∧
    (e.requiredIndexes file).outcome = (match firstPanic? file kept with
      | some p => .panicked p
      | none => .returned ((kept.filter (takes file)).map (·.id))) ∧
    (∀ ids, (e.requiredIndexes file).outcome = .returned ids → ids.Nodup) ∧
    (∀ types', (ofDescriptors skip ds types' limit).requiredIndexes file = e.requiredIndexes file) ∧
    ∀ σ, ofDescriptors skip (ds.map (IndexDescriptor.exchange σ)) types limit = e.exchange σ ∧
      ∀ t, (e.exchange σ).requiredForType t = e.requiredForType t := by
  intro e kept
  have hrecords := (RegistryBuilder.follows_registerEach skip ds).records
  have hpass (types : List FileType) :
      (ofDescriptors skip ds types limit).requiredIndexes file = pass file kept :=
    requiredIndexes_ofRegistry hrecords types limit file
  refine ⟨hpass types, ?_, ?_, fun ids hids => ?_,
    fun types' => (hpass types').trans (hpass types).symm, fun σ => ?_⟩
  · rw [hpass, IndexDescriptor.notes_pass]
  · rw [hpass, IndexDescriptor.outcome_pass]
  · have hkept : (kept.map (·.id)).Nodup :=
      hrecords.ids_nodup.sublist (List.filter_sublist.map _)
    rw [hpass] at hids
    exact hkept.sublist (IndexDescriptor.sublist_of_pass hids)
  · have hexchange : ofDescriptors skip (ds.map (IndexDescriptor.exchange σ)) types limit =
        ofRegistry (((RegistryBuilder.empty skip).registerEach ds).1.finish.exchange σ) types limit :=
      congrArg (fun b : RegistryBuilder => ofRegistry b.registry types limit)
        (RegistryBuilder.registerEach_exchange σ (RegistryBuilder.empty skip) ds)
    refine ⟨hexchange.trans (ofRegistry_exchange σ _ types limit), fun t => ?_⟩
    have hview := requiredForType_exchange σ
      ((RegistryBuilder.empty skip).registerEach ds).1.finish types limit t
    rwa [ofRegistry_exchange] at hview

end Evaluator

end IndexCoordinator
