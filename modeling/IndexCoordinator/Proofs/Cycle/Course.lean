import IndexCoordinator.Cycle.Genesis
import IndexCoordinator.Proofs.Registry.Listing

/-!
# The course of a build

What the extension host lists and how storage opens indexes decides what becomes of a build: its
outcome, the published registry, and which indexes storage is asked to open.  Here the build is one
function of these answers.

* `Course`, `Course.ofListing`   a build done at once, without anything in between;
* `Course.Fits`                  what a course can be, by what fails first;
* `Course.fits_ofAssembly`       an assembly opens its indexes up to the first that fails;
* `Course.fits_ofListing`        every course is of this kind.
-/

namespace IndexCoordinator

/-- how the extension host answers when it is asked for its descriptors -/
abbrev Listing := Outcome (Except ExtensionError (List IndexDescriptor))

def Opening.succeeds : Opening → Bool
  | .returned (.ok ()) => true
  | _ => false

/-- an outcome behind the guard of the build -/
def BuildOutcome.ofOutcome : Outcome (Except BuildError IndexConfiguration) → BuildOutcome
  | .returned o => o
  | .panicked p => .error (.panicked p.message)

/-- a configuration has the indexes of a registry, each at the version of its descriptor -/
structure IndexConfiguration.AgreesWith (cfg : IndexConfiguration) (r : Registry) : Prop where
  ids : cfg.indexIds = r.ids
  contains : ∀ id, cfg.contains id = r.contains id
  version : ∀ id, cfg.version? id = (r.descriptor? id).map (·.version)

/-- what becomes of a build: its outcome, the registry that it publishes, the indexes that it asks
storage to open, and those that storage has opened -/
structure Course where
  outcome : BuildOutcome
  registry : Option Registry := none
  asked : List IndexDescriptor := []
  opened : List IndexDescriptor := []

namespace Course

/-- an assembly that goes on to its end after some indexes were opened -/
def ofAssembly (opening : IndexDescriptor → Opening) (a : Assembly)
    (before : List IndexDescriptor) : Course where
  outcome := .ofOutcome (IndexConfiguration.complete opening a.registry a.versions a.remaining)
  registry := some a.registry
  asked := before ++ IndexConfiguration.asked opening a.remaining
  opened := before ++ a.remaining.takeWhile fun d => (opening d).succeeds

def ofRegistry (opening : IndexDescriptor → Opening) (r : Registry) : Course :=
  ofAssembly opening (.ofRegistry r) []

def ofListing (settings : IndexingSettings) (opening : IndexDescriptor → Opening) : Listing → Course
  | .returned (.ok ds) =>
    match Genesis.register settings ds with
    | .ok r => ofRegistry opening r
    | .error e => { outcome := .error e }
  | .returned (.error e) => { outcome := .error (.extensions e) }
  | .panicked p => { outcome := .error (.panicked p.message) }

/-- the registry of a listing in which no id is repeated -/
def Registers (skip : Bool) (listing : Listing) (r : Registry) : Prop :=
  ∃ ds, listing = .returned (.ok ds) ∧ r.Records (RegistryBuilder.kept skip ds)

/-- what the answers of the extension host and of storage make of a build -/
inductive Fits (skip : Bool) (listing : Listing) (opening : IndexDescriptor → Opening) :
    Course → Prop where
  | unlisted {e : ExtensionError} : listing = .returned (.error e) →
      Fits skip listing opening { outcome := .error (.extensions e) }
  | panicked {p : PanicPayload} : listing = .panicked p →
      Fits skip listing opening { outcome := .error (.panicked p.message) }
  | repeated {ds : List IndexDescriptor} {d : IndexDescriptor} : listing = .returned (.ok ds) →
      RegistryBuilder.FirstRepeat skip ds d →
      Fits skip listing opening { outcome := .error (.duplicateIndex d.id) }
  /-- storage has refused an index -/
  | unopened {r : Registry} {before after : List IndexDescriptor} {d : IndexDescriptor}
      {e : StorageError} : Registers skip listing r → r.descriptors = before ++ d :: after →
      (∀ x ∈ before, opening x = .returned (.ok ())) → opening d = .returned (.error e) →
      Fits skip listing opening ⟨.error (.storage d.id e), some r, before ++ [d], before⟩
  /-- storage has panicked on an index -/
  | broken {r : Registry} {before after : List IndexDescriptor} {d : IndexDescriptor}
      {p : PanicPayload} : Registers skip listing r → r.descriptors = before ++ d :: after →
      (∀ x ∈ before, opening x = .returned (.ok ())) → opening d = .panicked p →
      Fits skip listing opening ⟨.error (.panicked p.message), some r, before ++ [d], before⟩
  | built {r : Registry} {cfg : IndexConfiguration} : Registers skip listing r →
      (∀ x ∈ r.descriptors, opening x = .returned (.ok ())) → cfg.AgreesWith r →
      Fits skip listing opening ⟨.ok cfg, some r, r.descriptors, r.descriptors⟩

section
variable {opening : IndexDescriptor → Opening} {a : Assembly} {d : IndexDescriptor}
  {rest before : List IndexDescriptor} {skip : Bool} {listing : Listing} {c : Course}

/-! ## one opening -/

theorem ofAssembly_finish (h : a.remaining = []) :
    ofAssembly opening a before = ⟨.ok a.finish, some a.registry, before, before⟩ := by
  simp only [ofAssembly, h, IndexConfiguration.asked, List.takeWhile_nil, List.append_nil]
  rfl

theorem ofAssembly_opened (h : a.remaining = d :: rest) (hd : opening d = .returned (.ok ())) :
    ofAssembly opening a before = ofAssembly opening (a.opened d rest) (before ++ [d]) := by
  simp [ofAssembly, Assembly.opened, h, IndexConfiguration.complete, IndexConfiguration.asked,
    Opening.result, Opening.succeeds, hd]

theorem ofAssembly_refused {e : StorageError} (h : a.remaining = d :: rest)
    (hd : opening d = .returned (.error e)) : ofAssembly opening a before =
      ⟨.error (.storage d.id e), some a.registry, before ++ [d], before⟩ := by
  simp [ofAssembly, h, IndexConfiguration.complete, IndexConfiguration.asked, Opening.result,
    Opening.succeeds, BuildOutcome.ofOutcome, hd]

theorem ofAssembly_panicked {p : PanicPayload} (h : a.remaining = d :: rest)
    (hd : opening d = .panicked p) : ofAssembly opening a before =
      ⟨.error (.panicked p.message), some a.registry, before ++ [d], before⟩ := by
  simp [ofAssembly, h, IndexConfiguration.complete, IndexConfiguration.asked, Opening.result,
    Opening.succeeds, BuildOutcome.ofOutcome, hd]

/-! ## whole courses -/

/-- **A configuration agrees with its registry** if its table is in order of registration. -/
theorem agreesWith_finish (hr : Registers skip listing a.registry)
    (hversions : a.versions = a.registry.descriptors.map fun d => (d.id, d.version)) :
    a.finish.AgreesWith a.registry := by
  obtain ⟨ds, _, hrecords⟩ := hr
  have hversion (id : IndexId) :
      a.finish.version? id = (a.registry.descriptor? id).map (·.version) := by
    show a.versions.lookup id = _
    rw [hversions]
    exact hrecords.indexed.lookup_versions id
  refine ⟨rfl, fun id => ?_, hversion⟩
  rw [IndexConfiguration.contains, hversion, Option.isSome_map, hrecords.isSome_descriptor?]

theorem fits_ofAssembly (hr : Registers skip listing a.registry)
    (hsplit : a.registry.descriptors = before ++ a.remaining)
    (hversions : a.versions = before.map fun d => (d.id, d.version))
    (hbefore : ∀ x ∈ before, opening x = .returned (.ok ())) :
    (ofAssembly opening a before).Fits skip listing opening := by
  induction hrest : a.remaining generalizing a before with
  | nil =>
    rw [hrest, List.append_nil] at hsplit
    subst hsplit
    rw [ofAssembly_finish hrest]
    exact .built hr hbefore (agreesWith_finish hr hversions)
  | cons d rest ih =>
    rw [hrest] at hsplit
    cases hd : opening d with
    | panicked p =>
      rw [ofAssembly_panicked hrest hd]
      exact .broken hr hsplit hbefore hd
    | returned answer =>
      cases answer with
      | error e =>
        rw [ofAssembly_refused hrest hd]
        exact .unopened hr hsplit hbefore hd
      | ok =>
        rw [ofAssembly_opened hrest hd]
        refine ih (a := a.opened d rest) hr ?_ ?_ ?_ rfl
        · exact hsplit.trans (List.append_cons before d rest)
        · show a.versions ++ [(d.id, d.version)] = _
          rw [hversions, List.map_append]
          rfl
        · rw [List.forall_mem_append, List.forall_mem_singleton]
          exact ⟨hbefore, hd⟩

theorem fits_ofListing (settings : IndexingSettings) (opening : IndexDescriptor → Opening)
    (listing : Listing) :
    (ofListing settings opening listing).Fits settings.skipFilenameIndex listing opening := by
  cases listing with
  | panicked p => exact .panicked rfl
  | returned answer =>
    cases answer with
    | error e => exact .unlisted rfl
    | ok ds =>
      obtain ⟨r, hr, hrecords⟩ | ⟨d, hd, hr⟩ := Genesis.register_cases settings ds <;>
        simp only [ofListing, hr]
      · exact fits_ofAssembly ⟨ds, rfl, hrecords⟩ rfl rfl nofun
      · exact .repeated rfl hd

theorem Fits.nodup (h : c.Fits skip listing opening) : (c.asked.map (·.id)).Nodup := by
  have hregistered {r : Registry} (hr : Registers skip listing r) : r.ids.Nodup := by
    obtain ⟨ds, _, hrecords⟩ := hr
    exact hrecords.indexed.nodup
  cases h with
  | unlisted | panicked | repeated => exact List.nodup_nil
  | built hr => exact hregistered hr
  | unopened hr hsplit | broken hr hsplit =>
    refine (hregistered hr).sublist (List.Sublist.map _ ?_)
    rw [hsplit]
    exact (List.cons_sublist_cons.mpr (List.nil_sublist _)).append_left _

end

end Course

end IndexCoordinator
