import IndexCoordinator.Id.Call
import IndexCoordinator.Proofs.Fairness
import IndexCoordinator.Proofs.Id.Table

/-!
# Interning

Any number of calls come in at one table that is empty at first.  Two creations may both miss a name
before either inserts it; the second look, in the section that inserts, makes one of them the first.

* `IdTable.Inverse`      list of names and map of numbers undo each other; an insertion keeps this
                         (`IdTable.Inverse.insert`);
* `IdTable.Call.Moves`   the sections of calls: only one that inserts a missing name changes the table;
* `Execution.Issues`     an id is given out for the first time; the table is made of these moments
                         (`Execution.has_iff_issued`);
* `Execution.Created`    a creation that has its id; with no other call in between it is
                         `IdTable.create` (`Execution.created_alone`);
* `Interning.Faithful`   what callers rely on, in every execution (`Interning.faithful`).
-/

namespace IndexCoordinator

namespace IdTable

variable {t : IdTable} {name : String} {id : IndexId} {n : Nat}

/-- list of names and map of numbers undo each other, and hold every name once -/
structure Inverse (t : IdTable) : Prop where
  lookup_iff (name : String) (n : Nat) :
    t.numbers.lookup name = some n ↔ 0 < n ∧ t.names[n - 1]? = some name
  nodup : t.names.Nodup
  keys : (t.numbers.map (·.1)).Perm t.names

theorem find_eq_some :
    t.find name = some id ↔ id.name = name ∧ t.numbers.lookup name = some id.number := by
  rw [find, Option.map_eq_some_iff]
  constructor
  · rintro ⟨n, hn, rfl⟩
    exact ⟨rfl, hn⟩
  · rintro ⟨rfl, hn⟩
    exact ⟨_, hn, rfl⟩

theorem insert_of_missing (h : t.find name = none) :
    t.insert name = (⟨t.names ++ [name], (name, t.names.length + 1) :: t.numbers⟩,
      ⟨name, t.names.length + 1⟩) := by
  rw [insert, h]

theorem insert_of_found (h : t.find name = some id) : t.insert name = (t, id) := by
  rw [insert, h]

theorem inverse_empty : ({} : IdTable).Inverse :=
  ⟨fun _ _ => by simp, List.nodup_nil, List.Perm.refl _⟩

theorem getElem?_concat_eq_some {α : Type} {l : List α} {a x : α} {i : Nat} :
    (l ++ [a])[i]? = some x ↔ l[i]? = some x ∨ i = l.length ∧ a = x := by
  obtain h | rfl | h := Nat.lt_trichotomy i l.length
  · simp [List.getElem?_append_left h, Nat.ne_of_lt h]
  · simp
  · have hlen : (l ++ [a]).length ≤ i := by
      rw [List.length_append]
      exact h
    rw [List.getElem?_eq_none hlen, List.getElem?_eq_none (Nat.le_of_lt h)]
    simp [Nat.ne_of_gt h]

namespace Inverse

theorem find_iff (h : t.Inverse) :
    t.find name = some id ↔ id.name = name ∧ 0 < id.number ∧ t.nameOf id = some name := by
  rw [find_eq_some, h.lookup_iff]
  rfl

theorem not_mem (h : t.Inverse) (hnone : t.find name = none) : name ∉ t.names := by
  intro hmem
  obtain ⟨i, hi⟩ := List.getElem?_of_mem hmem
  have hfound : t.find name = some ⟨name, i + 1⟩ := h.find_iff.mpr ⟨rfl, Nat.succ_pos i, hi⟩
  cases hnone.symm.trans hfound

/-- **An insertion keeps list and map inverse to each other.** -/
theorem insert (h : t.Inverse) (name : String) : (t.insert name).1.Inverse := by
  cases hf : t.find name with
  | some id =>
    rw [insert_of_found hf]
    exact h
  | none =>
    have hnew := h.not_mem hf
    have hperm := List.perm_append_singleton name t.names
    rw [insert_of_missing hf]
    refine ⟨fun x n => ?_, hperm.nodup_iff.mpr (List.nodup_cons.mpr ⟨hnew, h.nodup⟩),
      (h.keys.cons name).trans hperm.symm⟩
    rw [List.lookup_cons, getElem?_concat_eq_some]
    by_cases hx : x = name
    · -- only the last name is the new one
      subst hx
      have hold : t.names[n - 1]? ≠ some x := fun hget => hnew (List.mem_of_getElem? hget)
      simp only [beq_self_eq_true, Option.some.injEq, hold, false_or, and_true]
      omega
    · have hne : (x == name) = false := beq_eq_false_iff_ne.mpr hx
      have hlast : name ≠ x := Ne.symm hx
      simp only [hne, h.lookup_iff x n, hlast, and_false, or_false]

end Inverse

/-! ## the sections of calls -/

namespace Call

inductive Fresh : Call → Prop where
  | create (name : String) : Fresh (create name)
  | find (name : String) : Fresh (.finding name)
  | name (id : IndexId) : Fresh (.naming id)

def Over (c : Call) : Prop := ∀ fired t, next fired t c = .blocked

inductive Moves (t : IdTable) : Call → IdTable → Call → Prop where
  | hit {name : String} {id : IndexId} : t.find name = some id →
      Moves t (create name) t (.creating (.ended id))
  | miss {name : String} : t.find name = none →
      Moves t (create name) t (.creating (.inserting name))
  | late {name : String} {id : IndexId} : t.find name = some id →
      Moves t (.creating (.inserting name)) t (.creating (.ended id))
  | issue {name : String} : t.find name = none →
      Moves t (.creating (.inserting name)) (t.insert name).1
        (.creating (.ended ⟨name, t.names.length + 1⟩))
  | find {name : String} : Moves t (.finding name) t (.found (t.find name))
  | name {id : IndexId} : Moves t (.naming id) t (.named (t.nameOf id))

section
variable {fired : Bool} {answer : Answering} {t : IdTable} {c : Call} {q : Progress IdTable Call}

/-- **Every section of a call is one of these**; it starts nothing and leaves no event. -/
theorem moves_of_next (h : (next fired t c).under answer = some q) :
    Moves t c q.shared q.self ∧ q.spawned = [] ∧ q.events = [] := by
  cases c with
  | creating c =>
    cases c with
    | looking name =>
      cases hf : t.find name with
      | some id =>
        simp only [next, Creation.next, hf] at h
        cases h
        exact ⟨.hit hf, rfl, rfl⟩
      | none =>
        simp only [next, Creation.next, hf] at h
        cases h
        exact ⟨.miss hf, rfl, rfl⟩
    | inserting name =>
      cases h
      refine ⟨?_, rfl, rfl⟩
      cases hf : t.find name with
      | some id =>
        rw [insert_of_found hf]
        exact .late hf
      | none =>
        have hm : Moves t _ _ _ := .issue hf
        rw [insert_of_missing hf] at hm ⊢
        exact hm
    | ended id => cases h
  | finding name =>
    cases h
    exact ⟨.find, rfl, rfl⟩
  | naming id =>
    cases h
    exact ⟨.name, rfl, rfl⟩
  | found | named => cases h

def ahead : Call → Nat
  | .creating (.looking _) => 2
  | .creating (.inserting _) => 1
  | .finding _ => 1
  | .naming _ => 1
  | _ => 0

theorem over_of_ahead (h : c.ahead = 0) : c.Over := by
  cases c with
  | creating c =>
    cases c with
    | ended id => exact fun _ _ => rfl
    | looking | inserting => cases h
  | finding | naming => cases h
  | found id => exact fun _ _ => rfl
  | named name => exact fun _ _ => rfl

theorem isSome_next (h : c.ahead ≠ 0) (fired : Bool) (answer : Answering) (t : IdTable) :
    ((next fired t c).under answer).isSome = true := by
  cases c with
  | creating c =>
    cases c with
    | looking name => cases hf : t.find name <;> simp [next, Creation.next, hf]
    | inserting name => rfl
    | ended id => exact absurd rfl h
  | finding name => rfl
  | naming id => rfl
  | found id => exact absurd rfl h
  | named name => exact absurd rfl h

theorem Moves.ahead {t' : IdTable} {c' : Call} (h : Moves t c t' c') : c'.ahead < c.ahead := by
  cases h <;> simp [Call.ahead, create]

end

/-- what a call that came in as a creation of `name` may have reached -/
inductive Creates (t : IdTable) (name : String) : Call → Prop where
  | looking : Creates t name (create name)
  | inserting : Creates t name (.creating (.inserting name))
  | ended {id : IndexId} : id.name = name → t.Has id → Creates t name (.creating (.ended id))

theorem Moves.has {t t' : IdTable} {c c' : Call} {id : IndexId} (hm : Moves t c t' c')
    (h : t.Has id) : t'.Has id := by
  cases hm with
  | issue => exact h.insert _
  | _ => exact h

theorem Creates.still {t t' : IdTable} {name : String} {c c' d : Call} (h : Creates t name c)
    (hm : Moves t d t' c') : Creates t' name c := by
  cases h with
  | looking => exact .looking
  | inserting => exact .inserting
  | ended hname hhas => exact .ended hname (hm.has hhas)

theorem Creates.goOn {t t' : IdTable} {name : String} {c c' : Call} (h : Creates t name c)
    (hm : Moves t c t' c') : Creates t' name c' := by
  cases h with
  | looking =>
    cases hm with
    | hit hf => exact .ended (name_of_find hf) (has_of_find hf)
    | miss hf => exact .inserting
  | inserting =>
    cases hm with
    | late hf => exact .ended (name_of_find hf) (has_of_find hf)
    | issue hf =>
      have hid : (t.insert name).2 = ⟨name, t.names.length + 1⟩ := by rw [insert_of_missing hf]
      exact .ended rfl (hid ▸ t.has_insert name)
  | ended => cases hm

end Call

end IdTable

/-- executions at one new table with any calls -/
abbrev Interning := Execution IdTable.Call.next (fun _ c => c.Fresh) fun t => t = {}

namespace Execution

open IdTable (Call Inverse)

variable {E : Interning} {t u s m m' i j : Nat} {id id' : IndexId} {name name' : String}

theorem table_section {c : Call} {fired : Bool} {answer : Answering} {q : Progress IdTable Call}
    (h : E.Moves t i c fired answer q) : Call.Moves (E.cells t) c (E.cells (t + 1)) q.self := by
  rw [h.cells_succ]
  exact (Call.moves_of_next h.leads).1

theorem table_zero (E : Interning) : E.cells 0 = {} := E.isInitial

/-! ## the first insertions of names -/

/-- a creation inserts a name that the table has not, and so gives out a new id -/
def Issues (E : Interning) (m i : Nat) (id : IndexId) : Prop :=
  (E.cells m).find id.name = none ∧
    ∃ fired answer q, E.Moves m i (.creating (.inserting id.name)) fired answer q ∧
      q.self = .creating (.ended id)

/-- the table after an insertion, and the number that it gave -/
theorem Issues.table (h : E.Issues m i id) :
    E.cells (m + 1) = ((E.cells m).insert id.name).1 ∧
      id.number = (E.cells m).names.length + 1 := by
  obtain ⟨name, number⟩ := id
  obtain ⟨hnone, _, _, q, hm, hself⟩ := h
  have hsec := table_section hm
  rw [hself] at hsec
  generalize E.cells (m + 1) = t' at hsec ⊢
  cases hsec with
  | late hf => cases hnone.symm.trans hf
  | issue => exact ⟨rfl, rfl⟩

/-- **Only a first insertion changes the table.** -/
theorem table_succ (E : Interning) (t : Nat) :
    E.cells (t + 1) = E.cells t ∨ ∃ i id, E.Issues t i id := by
  obtain h | ⟨i, c, fired, answer, q, hm⟩ := cells_succ (E := E) t
  · exact .inl h
  · have hsec := table_section hm
    generalize ht : E.cells (t + 1) = t' at hsec ⊢
    generalize hq : q.self = c' at hsec
    cases hsec with
    | issue hf => exact .inr ⟨i, _, hf, fired, answer, q, hm, hq⟩
    | _ => exact .inl rfl

theorem Issues.insert (h : E.Issues m i id) :
    E.cells (m + 1) = ⟨(E.cells m).names ++ [id.name], (id.name, id.number) :: (E.cells m).numbers⟩ := by
  rw [h.table.1, IdTable.insert_of_missing h.1, h.table.2]

theorem Issues.has (h : E.Issues m i id) : (E.cells (m + 1)).Has id := by
  rw [h.insert, IdTable.Has, IdTable.find_eq_some]
  exact ⟨rfl, List.lookup_cons_self⟩

theorem inverse (E : Interning) (t : Nat) : (E.cells t).Inverse := by
  induction t with
  | zero =>
    rw [E.table_zero]
    exact IdTable.inverse_empty
  | succ t ih =>
    obtain h | ⟨i, id, h⟩ := E.table_succ t
    · exact h ▸ ih
    · exact h.table.1 ▸ ih.insert id.name

theorem has_mono (h : (E.cells t).Has id) (htu : t ≤ u) : (E.cells u).Has id := by
  induction u, htu using Nat.le_induction with
  | base => exact h
  | succ u _ ih =>
    obtain h | ⟨i, c, fired, answer, q, hm⟩ := cells_succ (E := E) u
    · exact h ▸ ih
    · exact (table_section hm).has ih

/-- **The table has exactly the ids that were given out before.** -/
theorem has_iff_issued : (E.cells t).Has id ↔ ∃ m i, m < t ∧ E.Issues m i id := by
  constructor
  · intro h
    induction t with
    | zero =>
      rw [E.table_zero] at h
      cases h
    | succ t ih =>
      have hbefore (h : (E.cells t).Has id) : ∃ m i, m < t + 1 ∧ E.Issues m i id := by
        obtain ⟨m, i, hm, hi⟩ := ih h
        exact ⟨m, i, Nat.lt_succ_of_lt hm, hi⟩
      obtain hsame | ⟨i, new, hi⟩ := E.table_succ t
      · exact hbefore (hsame ▸ h)
      · by_cases hname : id.name = new.name
        · -- the name is the new one, and an id is told by its name
          obtain rfl := h.unique hi.has hname
          exact ⟨t, i, Nat.lt_succ_self t, hi⟩
        · refine hbefore ?_
          rw [hi.insert, IdTable.Has, IdTable.find_eq_some,
            List.lookup_cons, beq_eq_false_iff_ne.mpr hname] at h
          exact IdTable.find_eq_some.mpr h
  · rintro ⟨m, i, hm, hi⟩
    exact has_mono hi.has hm

/-! ## numbers in the order of first insertions -/

theorem names_length_mono (E : Interning) (htu : t ≤ u) :
    (E.cells t).names.length ≤ (E.cells u).names.length := by
  induction u, htu using Nat.le_induction with
  | base => exact Nat.le_refl _
  | succ u _ ih =>
    obtain h | ⟨i, id, h⟩ := E.table_succ u
    · exact h ▸ ih
    · rw [h.insert, List.length_append]
      exact Nat.le_add_right_of_le ih

theorem Issues.number_lt (h : E.Issues m i id) (h' : E.Issues m' j id') (hlt : m < m') :
    id.number < id'.number := by
  have hlen := E.names_length_mono hlt
  rw [h.insert, List.length_append] at hlen
  rw [h.table.2, h'.table.2]
  exact Nat.succ_lt_succ hlen

theorem Issues.number_lt_iff (h : E.Issues m i id) (h' : E.Issues m' j id') :
    id.number < id'.number ↔ m < m' := by
  refine ⟨fun hlt => ?_, h.number_lt h'⟩
  obtain hm | rfl | hm := Nat.lt_trichotomy m m'
  · exact hm
  · rw [h.table.2, h'.table.2] at hlt
    exact absurd hlt (Nat.lt_irrefl _)
  · exact absurd hlt (Nat.lt_asymm (h'.number_lt h hm))

theorem Issues.unique (h : E.Issues m i id) (h' : E.Issues m' j id')
    (hnum : id.number = id'.number) : m = m' ∧ i = j ∧ id = id' := by
  have hm : ¬ m < m' := fun hlt => Nat.ne_of_lt (h.number_lt h' hlt) hnum
  have hm' : ¬ m' < m := fun hlt => Nat.ne_of_gt (h'.number_lt h hlt) hnum
  obtain rfl : m = m' := by omega
  obtain ⟨_, _, _, q, hmove, hself⟩ := h
  obtain ⟨_, _, _, q', hmove', hself'⟩ := h'
  have hcue := hmove.cue.symm.trans hmove'.cue
  cases hcue
  have hproc := hmove.proc.symm.trans hmove'.proc
  refine ⟨rfl, rfl, ?_⟩
  cases id
  cases id'
  cases hproc
  cases hnum
  rfl

theorem issued_iff_le (E : Interning) (t n : Nat) :
    (∃ m i id, m < t ∧ E.Issues m i id ∧ id.number = n) ↔ 0 < n ∧ n ≤ (E.cells t).names.length := by
  constructor
  · rintro ⟨m, i, id, hm, h, rfl⟩
    have hlen := E.names_length_mono hm
    rw [h.insert, List.length_append] at hlen
    rw [h.table.2]
    exact ⟨Nat.succ_pos _, hlen⟩
  · rintro ⟨hpos, hle⟩
    obtain ⟨name, hname⟩ : ∃ name, (E.cells t).names[n - 1]? = some name :=
      ⟨_, List.getElem?_eq_getElem (by omega)⟩
    have hfind : (E.cells t).find name = some ⟨name, n⟩ :=
      (E.inverse t).find_iff.mpr ⟨rfl, hpos, hname⟩
    obtain ⟨m, i, hm, h⟩ := has_iff_issued.mp (IdTable.has_of_find hfind)
    exact ⟨m, i, _, hm, h, rfl⟩

/-! ## what calls answer -/

/-- a creation of a name has ended with an id -/
def Created (E : Interning) (t i : Nat) (name : String) (id : IndexId) : Prop :=
  (∃ s, E.Enters s i (Call.create name)) ∧ E.proc? t i = some (.creating (.ended id))

theorem kept_creations : Kept Call.next (fun _ c => c.Fresh) fun t c₀ c =>
    ∀ name, c₀ = Call.create name → c.Creates t name where
  fresh _ _ hc := hc ▸ .looking
  spawned hq := (Call.moves_of_next hq).2.1
  self hq h name hc := (h name hc).goOn (Call.moves_of_next hq).1
  others hq h name hc := (h name hc).still (Call.moves_of_next hq).1

theorem Created.has (h : E.Created t i name id) : id.name = name ∧ (E.cells t).Has id := by
  obtain ⟨⟨s, he⟩, hp⟩ := h
  cases kept_creations.of_enters he hp name rfl with
  | ended hname hhas => exact ⟨hname, hhas⟩

theorem Created.nameOf (h : E.Created t i name id) (htu : t ≤ u) :
    (E.cells u).nameOf id = some name := by
  obtain ⟨rfl, hhas⟩ := h.has
  exact ((E.inverse u).find_iff.mp (has_mono hhas htu)).2.2

/-- **A creation that no other call interrupts** does what `IdTable.create` does. -/
theorem created_alone {fired fired' : Bool} {answer answer' : Answering}
    (h : E.proc? t i = some (Call.create name)) (hfirst : E.cue t = .move i fired answer)
    (hsecond : E.cue (t + 1) = .move i fired' answer') :
    E.cells (t + 2) = ((E.cells t).create name).1 ∧
      E.proc? (t + 2) i = some (.creating (.ended ((E.cells t).create name).2)) := by
  cases hf : (E.cells t).find name with
  | some id =>
    obtain ⟨hnext, hcreate⟩ := IdTable.create_of_found hf
    have hm := Moves.of_cue hfirst h (by rw [Call.create, Call.next, hnext]; rfl)
    have hended : E.proc? (t + 1) i = some (.creating (.ended id)) := hm.self_succ
    -- the second turn finds that the call has ended
    have hstill : E.run (t + 2) = E.run (t + 1) := run_of_blocked hsecond hended rfl
    rw [cells, proc?, hstill, hcreate]
    exact ⟨hm.cells_succ, hended⟩
  | none =>
    obtain ⟨hnext, hcreate⟩ := IdTable.create_of_missing hf
    have hm := Moves.of_cue hfirst h (by rw [Call.create, Call.next, hnext]; rfl)
    have htable : E.cells (t + 1) = E.cells t := hm.cells_succ
    have hm' := Moves.of_cue hsecond hm.self_succ rfl
    rw [hcreate, ← htable]
    exact ⟨hm'.cells_succ, hm'.self_succ⟩

theorem only_section {c c' : Call} (h : E.Enters s i c) (hone : c.ahead = 1)
    (hp : E.proc? u i = some c') (hne : c' ≠ c) :
    ∃ v, s < v ∧ v < u ∧ Call.Moves (E.cells v) c (E.cells (v + 1)) c' := by
  have hover (fired : Bool) (t : IdTable) (answer : Answering) (q : Progress IdTable Call)
      (hq : (Call.next fired t c).under answer = some q) : q.self.Over := by
    have hlt : q.self.ahead < 1 := hone ▸ (Call.moves_of_next hq).1.ahead
    exact Call.over_of_ahead (Nat.lt_one_iff.mp hlt)
  obtain ⟨v, _, _, q, hsv, hvu, hm, rfl⟩ := h.exists_only_move hover hp hne
  exact ⟨v, hsv, hvu, table_section hm⟩

/-- **Every call ends** unless it is left alone for good. -/
theorem Fair.call_ends (hfair : E.Fair) {c : Call} (h : E.Enters s i c) :
    ∃ u c', s < u ∧ E.proc? u i = some c' ∧ c'.Over := by
  obtain ⟨u, c', hsu, hp, hdone⟩ := hfair.exists_done Call.ahead (fun _ => Call.isSome_next)
    (fun _ _ _ _ _ _ hm => (table_section hm).ahead) h
  exact ⟨u, c', hsu, hp, Call.over_of_ahead hdone⟩

end Execution

/-- what callers of a table rely on -/
structure Interning.Faithful (E : Interning) : Prop where
  /-- list of names and map of numbers undo each other -/
  inverse (t : Nat) : (E.cells t).Inverse
  /-- only the first insertion of a name changes the table, and puts it last -/
  names_succ (t : Nat) : E.cells (t + 1) = E.cells t ∨
    ∃ i id, E.Issues t i id ∧ (E.cells (t + 1)).names = (E.cells t).names ++ [id.name]
  /-- the first insertion gives the next number -/
  number {t i : Nat} {id : IndexId} :
    E.Issues t i id → id.number = (E.cells t).names.length + 1
  /-- the numbers given out have no gap -/
  dense (t n : Nat) : (∃ m i id, m < t ∧ E.Issues m i id ∧ id.number = n) ↔
    0 < n ∧ n ≤ (E.cells t).names.length
  /-- no name is given out twice -/
  once {t u i j : Nat} {a b : IndexId} :
    E.Issues t i a → E.Issues u j b → a.name = b.name → t = u ∧ i = j ∧ a = b
  /-- the order of ids is the order of the first insertions -/
  order {t u i j : Nat} {a b : IndexId} :
    E.Issues t i a → E.Issues u j b → (compare a b = .lt ↔ t < u)
  /-- a creation ends with the id that its name was given first -/
  created {t i : Nat} {name : String} {id : IndexId} : E.Created t i name id →
    id.name = name ∧ ∃ m j, m < t ∧ E.Issues m j id
  /-- two creations end with one id if and only if their names are equal -/
  same {t u i j : Nat} {name name' : String} {a b : IndexId} :
    E.Created t i name a → E.Created u j name' b → (a.number = b.number ↔ name = name')
  /-- from then on the table has the name of the id -/
  keeps {t u i : Nat} {name : String} {id : IndexId} :
    E.Created t i name id → t ≤ u → (E.cells u).nameOf id = some name
  /-- who asks for the name of a created id is told it -/
  named {t s u i j : Nat} {name : String} {id : IndexId} {answer : Option String} :
    E.Created t i name id → t ≤ s → E.Enters s j (.naming id) →
      E.proc? u j = some (.named answer) → answer = some name
  /-- who looks for a name finds its id after the first insertion and nothing before it -/
  found {s u i : Nat} {name : String} {answer : Option IndexId} :
    E.Enters s i (.finding name) → E.proc? u i = some (.found answer) →
      ∃ v, s < v ∧ v < u ∧
        ∀ id, answer = some id ↔ id.name = name ∧ ∃ m j, m < v ∧ E.Issues m j id
  /-- a call ends unless it is left alone for good -/
  ends {s i : Nat} {c : IdTable.Call} : E.Fair → E.Enters s i c →
    ∃ u c', s < u ∧ E.proc? u i = some c' ∧ c'.Over

open Execution in
/-- **Whatever calls come in and however their sections interleave**, names and ids correspond. -/
theorem Interning.faithful (E : Interning) : E.Faithful where
  inverse := E.inverse
  names_succ t := by
    obtain h | ⟨i, id, h⟩ := E.table_succ t
    · exact .inl h
    · exact .inr ⟨i, id, h, by rw [h.insert]⟩
  number h := h.table.2
  dense := E.issued_iff_le
  once ha hb hname := by
    obtain h := has_mono ha.has (Nat.le_max_left _ _)
    obtain h' := has_mono hb.has (Nat.le_max_right _ _)
    exact ha.unique hb (congrArg IndexId.number (h.unique h' hname))
  order ha hb := Nat.compare_eq_lt.trans (ha.number_lt_iff hb)
  created h := ⟨h.has.1, has_iff_issued.mp h.has.2⟩
  same {t u _ _ _ _ a b} ha hb := by
    obtain ⟨rfl, hhas⟩ := ha.has
    obtain ⟨rfl, hhas'⟩ := hb.has
    obtain ⟨_, _, _, hia⟩ := has_iff_issued.mp hhas
    obtain ⟨_, _, _, hib⟩ := has_iff_issued.mp hhas'
    constructor
    · intro hnum
      exact congrArg IndexId.name (hia.unique hib hnum).2.2
    · intro hname
      have hlate := has_mono hhas (Nat.le_max_left t u)
      have hlate' := has_mono hhas' (Nat.le_max_right t u)
      exact congrArg IndexId.number (hlate.unique hlate' hname)
  keeps h htu := h.nameOf htu
  named h hts he hp := by
    obtain ⟨v, hsv, _, hsec⟩ := only_section he rfl hp nofun
    generalize E.cells (v + 1) = t' at hsec
    cases hsec with
    | name => exact h.nameOf (Nat.le_trans hts (Nat.le_of_lt hsv))
  found he hp := by
    obtain ⟨v, hsv, hvu, hsec⟩ := only_section he rfl hp nofun
    refine ⟨v, hsv, hvu, fun id => ?_⟩
    rw [← has_iff_issued]
    generalize E.cells (v + 1) = t' at hsec
    cases hsec with
    | find =>
      constructor
      · intro h
        exact ⟨IdTable.name_of_find h, IdTable.has_of_find h⟩
      · rintro ⟨rfl, h⟩
        exact h
  ends hfair he := hfair.call_ends he

/-- two creations miss a name, and before the second of them inserts it the built-in one is created -/
example :
    let go (i : Nat) : Cue IdTable.Call := .move i false (.granting [])
    (([.enter (.create "a"), .enter (.create "a"), .enter .filename, go 0, go 1, go 2, go 2, go 1,
        go 0].foldl (Run.follow IdTable.Call.next) ⟨{}, [], []⟩).procs)
      = [.creating (.ended ⟨"a", 2⟩), .creating (.ended ⟨"a", 2⟩),
          .creating (.ended ⟨"filenames", 1⟩)] := by
  decide

end IndexCoordinator
