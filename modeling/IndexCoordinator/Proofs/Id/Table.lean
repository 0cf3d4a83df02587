import IndexCoordinator.Id

/-!
# Ids of a table

A table has given an id if it finds it under its name.  What an insertion gives is such an id, and
the table keeps it whatever is inserted later, so that ids of one table are told apart by their names.

* `IdTable.Has`           a table has given an id;
* `IdTable.has_insert`    what an insertion answers;
* `IdTable.Has.insert`    an id outlasts every later insertion;
* `IdTable.Has.unique`    no two ids have one name.
-/

namespace IndexCoordinator

namespace IdTable

variable {t : IdTable} {id : IndexId}

/-- a table has given an id: it is the one that it finds under the name -/
def Has (t : IdTable) (id : IndexId) : Prop := t.find id.name = some id

instance (t : IdTable) (id : IndexId) : Decidable (t.Has id) :=
  inferInstanceAs (Decidable (t.find id.name = some id))

theorem name_of_find {name : String} (h : t.find name = some id) : id.name = name := by
  obtain ⟨n, _, rfl⟩ := Option.map_eq_some_iff.mp h
  rfl

theorem has_of_find {name : String} (h : t.find name = some id) : t.Has id := by
  rw [Has, name_of_find h]
  exact h

theorem has_insert (t : IdTable) (name : String) : (t.insert name).1.Has (t.insert name).2 :=
  has_of_find (t.find_insert_self name)

theorem Has.insert (h : t.Has id) (name : String) : (t.insert name).1.Has id := by
  cases hf : t.find name with
  | some other =>
    rw [IdTable.insert, hf]
    exact h
  | none =>
    have hne : (id.name == name) = false := by
      refine beq_eq_false_iff_ne.mpr fun heq => ?_
      cases (heq ▸ h : t.find name = some id).symm.trans hf
    rw [IdTable.insert, hf, Has, find, List.lookup_cons, hne]
    exact h

/-- **Ids of one table are told apart by their names.** -/
theorem Has.unique {a b : IndexId} (ha : t.Has a) (hb : t.Has b) (hname : a.name = b.name) :
    a = b := by
  have hfound : t.find a.name = some b := by rw [hname]; exact hb
  exact Option.some.inj (ha.symm.trans hfound)

end IdTable

end IndexCoordinator
