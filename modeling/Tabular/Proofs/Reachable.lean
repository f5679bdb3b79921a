import Tabular.Catalog

/-!
# Reachable catalogs

A request leaves the catalog as it is, loads one dataset under a new valid id, or
unloads one: these are the steps (`Step`), and every request makes one (`step_after`).
Every catalog that can be reached from the empty one therefore has each dataset under
the dataset's own id, which is a valid one (`Reachable.keyed`).
-/

namespace Tabular

/-- What can be asked of a catalog. -/
inductive Request where
  | add (id : String) (kind : Kind) (records : List Record)
  | addFrom (id : String) (kind : Kind) (source : Unit → Except LoadFault (List Record))
  | remove (id : String)
  | list
  | query (json : Json)
  | queryText (text : String)

namespace Catalog

/-- The catalog that a request leaves. -/
def after (c : Catalog) : Request → Catalog
  | .add id kind records => (c.add id kind records).2
  | .addFrom id kind source => (c.addFrom id kind source).2
  | .remove id => (c.remove id).2
  | .list | .query _ | .queryText _ => c

/-- Catalogs that some requests leave of the empty one. -/
inductive Reachable : Catalog → Prop
  | empty : Reachable empty
  | after {c : Catalog} (h : Reachable c) (r : Request) : Reachable (c.after r)

/-- Every dataset stands under its own id, and the id is valid. -/
structure Keyed (c : Catalog) : Prop where
  own : ∀ id d, c.get? id = some d → d.id = id
  valid : ∀ id d, c.get? id = some d → checkId id = .ok ()

/-- What can happen to a catalog: nothing, a new dataset under a valid id, or the end
of one. -/
inductive Step (c : Catalog) : Catalog → Prop
  | same : Step c c
  | load {id : String} (kind : Kind) (records : List Record) (hid : checkId id = .ok ())
      (hnew : c.contains id = false) : Step c ⟨c.datasets.insert id ⟨id, kind, records⟩⟩
  | unload {id : String} (hid : checkId id = .ok ()) (hold : c.contains id = true) :
      Step c ⟨c.datasets.erase id⟩

theorem step_add (c : Catalog) (id : String) (kind : Kind) (records : List Record) :
    Step c (c.add id kind records).2 := by
  unfold add
  split
  · exact .same
  next hid =>
    split
    · exact .same
    next hnew => exact .load kind records hid (by simpa using hnew)

theorem step_addFrom (c : Catalog) (id : String) (kind : Kind)
    (source : Unit → Except LoadFault (List Record)) : Step c (c.addFrom id kind source).2 := by
  unfold addFrom
  split
  · exact .same
  · split
    · exact .same
    · split
      · exact .same
      next records _ => exact c.step_add id kind records

theorem step_remove (c : Catalog) (id : String) : Step c (c.remove id).2 := by
  unfold remove
  split
  · exact .same
  next hid =>
    split
    next hold => exact .unload hid hold
    · exact .same

/-- Every request makes a step. -/
theorem step_after (c : Catalog) (r : Request) : Step c (c.after r) := by
  cases r with
  | add id kind records => exact c.step_add id kind records
  | addFrom id kind source => exact c.step_addFrom id kind source
  | remove id => exact c.step_remove id
  | list | query _ | queryText _ => exact .same

theorem keyed_empty : Keyed empty := by
  constructor
  · intro id d h
    cases h
  · intro id d h
    cases h

/-- A step keeps datasets under their own ids. -/
theorem Keyed.step {c c' : Catalog} (h : Keyed c) (hstep : Step c c') : Keyed c' := by
  cases hstep with
  | same => exact h
  | @load id kind records hid hnew =>
    -- Only the new id is looked up with another answer, and its dataset is built with it.
    constructor
    · intro id' d hd
      rw [get?, Dictionary.get?_insert] at hd
      split at hd
      next heq =>
        cases hd
        exact heq
      next => exact h.own id' d hd
    · intro id' d hd
      rw [get?, Dictionary.get?_insert] at hd
      split at hd
      next heq => exact heq ▸ hid
      next => exact h.valid id' d hd
  | @unload id hid hold =>
    constructor
    · intro id' d hd
      rw [get?, Dictionary.get?_erase] at hd
      split at hd
      · cases hd
      · exact h.own id' d hd
    · intro id' d hd
      rw [get?, Dictionary.get?_erase] at hd
      split at hd
      · cases hd
      · exact h.valid id' d hd

/-- **The invariant.** In every reachable catalog datasets stand under their own ids. -/
theorem Reachable.keyed {c : Catalog} (h : Reachable c) : Keyed c := by
  induction h with
  | empty => exact keyed_empty
  | after _ r ih => exact ih.step (step_after _ r)

/-- A dataset is loaded. -/
def Loads (c : Catalog) (d : Dataset) : Prop := d ∈ c.datasets.values

/-- Looking up an id finds the loaded dataset that has it. -/
theorem Keyed.get?_eq_some_iff {c : Catalog} (h : Keyed c) {id : String} {d : Dataset} :
    c.get? id = some d ↔ c.Loads d ∧ d.id = id := by
  unfold Loads Dictionary.values
  constructor
  · intro hd
    have hentry := Dictionary.mem_entries_iff.mpr hd
    exact ⟨List.mem_map.mpr ⟨(id, d), hentry, rfl⟩, h.own id d hd⟩
  · rintro ⟨hloads, rfl⟩
    obtain ⟨⟨id, d'⟩, hentry, rfl⟩ := List.mem_map.mp hloads
    have hd : c.get? id = some d' := Dictionary.mem_entries_iff.mp hentry
    rw [h.own id d' hd]
    exact hd

end Catalog

end Tabular
