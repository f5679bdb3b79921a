import Tabular.Catalog

/-!
# How the operations of a catalog end

Adding and removing first ask whether the id is valid and then whether it is loaded, and
adding from a source loads only for a valid id that is new. So an operation ends in one of
a few ways, and which one depends on these questions alone (`Catalog.id_cases`). Each way
has one equation here; whatever else is proved about catalogs follows from them.
-/

namespace Tabular

/-- An id under which a dataset can be loaded. -/
structure ValidId (id : String) : Prop where
  /-- It is not empty and not all blank. -/
  visible : ∃ c ∈ id.toList, Text.isBlank c = false
  /-- The underscore separates an id from a field, so it stands in no id. -/
  undivided : '_' ∉ id.toList

theorem checkId_eq_ok_iff {id : String} : checkId id = .ok () ↔ ValidId id := by
  have hblank : Text.isBlankText id = false ↔ ∃ c ∈ id.toList, Text.isBlank c = false := by
    simp [Text.isBlankText]
  unfold checkId
  cases hb : Text.isBlankText id with
  | true =>
    simp only [if_true, reduceCtorEq, false_iff]
    intro hid
    rw [hblank.mpr hid.visible] at hb
    cases hb
  | false =>
    by_cases hu : '_' ∈ id.toList
    · simp only [Bool.false_eq_true, if_false, List.contains_iff_mem, hu, if_true, reduceCtorEq,
        false_iff]
      intro hid
      exact hid.undivided hu
    · simp only [Bool.false_eq_true, if_false, List.contains_iff_mem, hu, true_iff]
      exact ⟨hblank.mp hb, hu⟩

theorem exists_checkId_error_iff {id : String} :
    (∃ fault, checkId id = .error fault) ↔ ¬ ValidId id := by
  rw [← checkId_eq_ok_iff]
  cases checkId id with
  | ok _ => simp
  | error fault => simp

namespace Catalog

variable {c : Catalog} {id : String} {kind : Kind} {records : List Record}

theorem ext_get? {c c' : Catalog} (h : ∀ id, c.get? id = c'.get? id) : c = c' := by
  cases c
  cases c'
  exact congrArg _ (Dictionary.ext_get? h)

theorem contains_iff : c.contains id = true ↔ ∃ d, c.get? id = some d :=
  Dictionary.contains_iff

theorem contains_eq_false_iff : c.contains id = false ↔ c.get? id = none := by
  rw [← Bool.not_eq_true, contains_iff]
  cases c.get? id <;> simp

theorem get?_empty (id : String) : empty.get? id = none := rfl

/-- A catalog with one more dataset, under the dataset's own id. -/
def loading (c : Catalog) (d : Dataset) : Catalog := ⟨c.datasets.insert d.id d⟩

/-- A catalog without the dataset of an id. -/
def unloading (c : Catalog) (id : String) : Catalog := ⟨c.datasets.erase id⟩

@[simp] theorem get?_loading (c : Catalog) (d : Dataset) (i : String) :
    (c.loading d).get? i = if d.id = i then some d else c.get? i :=
  Dictionary.get?_insert _ _ _ _

@[simp] theorem get?_unloading (c : Catalog) (id i : String) :
    (c.unloading id).get? i = if id = i then none else c.get? i :=
  Dictionary.get?_erase _ _ _

/-- All that adding and removing ask of an id. -/
theorem id_cases (c : Catalog) (id : String) :
    (∃ fault, checkId id = .error fault) ∨
      (checkId id = .ok () ∧ c.contains id = true) ∨
      (checkId id = .ok () ∧ c.contains id = false) := by
  cases checkId id with
  | error fault => exact .inl ⟨fault, rfl⟩
  | ok _ =>
    cases c.contains id with
    | true => exact .inr (.inl ⟨rfl, rfl⟩)
    | false => exact .inr (.inr ⟨rfl, rfl⟩)

/-! ## Adding -/

theorem add_of_invalid {fault : IdFault} (h : checkId id = .error fault) :
    c.add id kind records = (.error (.invalidId id fault), c) := by
  simp [add, h, Error.ofIdFault]

theorem add_of_loaded (hid : checkId id = .ok ()) (h : c.contains id = true) :
    c.add id kind records = (.error (.duplicate id), c) := by
  simp [add, hid, h]

theorem add_of_new (hid : checkId id = .ok ()) (h : c.contains id = false) :
    c.add id kind records =
      (.ok (c.loading ⟨id, kind, records⟩).ids, c.loading ⟨id, kind, records⟩) := by
  simp [add, hid, h, loading]

/-- Adding that succeeds answers with the ids that are then loaded. -/
theorem ids_of_add {ids : List String} (h : (c.add id kind records).1 = .ok ids) :
    ids = (c.loading ⟨id, kind, records⟩).ids := by
  rcases c.id_cases id with ⟨fault, hid⟩ | ⟨hid, hold⟩ | ⟨hid, hnew⟩
  · rw [add_of_invalid hid] at h
    cases h
  · rw [add_of_loaded hid hold] at h
    cases h
  · rw [add_of_new hid hnew] at h
    exact (Except.ok.inj h).symm

/-! ## Adding from a source -/

section Sources

variable {source : Unit → Except LoadFault (List Record)}

theorem addFrom_of_invalid {fault : IdFault} (h : checkId id = .error fault) :
    c.addFrom id kind source = (.error (.invalidId id fault), c) := by
  simp [addFrom, h, Error.ofIdFault]

theorem addFrom_of_loaded (hid : checkId id = .ok ()) (h : c.contains id = true) :
    c.addFrom id kind source = (.error (.duplicate id), c) := by
  simp [addFrom, hid, h]

theorem addFrom_of_fault {fault : LoadFault} (hid : checkId id = .ok ())
    (h : c.contains id = false) (hsource : source () = .error fault) :
    c.addFrom id kind source = (.error (.ingest id fault), c) := by
  simp [addFrom, hid, h, hsource]

/-- A source that has records is as good as the records. -/
theorem addFrom_of_records (hsource : source () = .ok records) :
    c.addFrom id kind source = c.add id kind records := by
  rcases c.id_cases id with ⟨fault, hid⟩ | ⟨hid, h⟩ | ⟨hid, h⟩
  · rw [addFrom_of_invalid hid, add_of_invalid hid]
  · rw [addFrom_of_loaded hid h, add_of_loaded hid h]
  · simp [addFrom, hid, h, hsource]

end Sources

/-! ## Removing -/

theorem remove_of_invalid {fault : IdFault} (h : checkId id = .error fault) :
    c.remove id = (.error (.invalidId id fault), c) := by
  simp [remove, h, Error.ofIdFault]

theorem remove_of_loaded (hid : checkId id = .ok ()) (h : c.contains id = true) :
    c.remove id = (.ok id, c.unloading id) := by
  simp [remove, hid, h, unloading]

theorem remove_of_absent (hid : checkId id = .ok ()) (h : c.contains id = false) :
    c.remove id = (.error (.notFound id), c) := by
  simp [remove, hid, h]

/-! ## Failing -/

/-- Adding that fails leaves the catalog as it is. -/
theorem add_snd_of_error {e : Error} (h : (c.add id kind records).1 = .error e) :
    (c.add id kind records).2 = c := by
  rcases c.id_cases id with ⟨fault, hid⟩ | ⟨hid, hold⟩ | ⟨hid, hnew⟩
  · rw [add_of_invalid hid]
  · rw [add_of_loaded hid hold]
  · rw [add_of_new hid hnew] at h
    cases h

theorem addFrom_snd_of_error {source : Unit → Except LoadFault (List Record)} {e : Error}
    (h : (c.addFrom id kind source).1 = .error e) : (c.addFrom id kind source).2 = c := by
  cases hsource : source () with
  | ok records =>
    rw [addFrom_of_records hsource] at h ⊢
    exact add_snd_of_error h
  | error fault =>
    rcases c.id_cases id with ⟨_, hid⟩ | ⟨hid, hold⟩ | ⟨hid, hnew⟩
    · rw [addFrom_of_invalid hid]
    · rw [addFrom_of_loaded hid hold]
    · rw [addFrom_of_fault hid hnew hsource]

theorem remove_snd_of_error {e : Error} (h : (c.remove id).1 = .error e) :
    (c.remove id).2 = c := by
  rcases c.id_cases id with ⟨fault, hid⟩ | ⟨hid, hold⟩ | ⟨hid, hnew⟩
  · rw [remove_of_invalid hid]
  · rw [remove_of_loaded hid hold] at h
    cases h
  · rw [remove_of_absent hid hnew]

/-! ## Looking up and listing -/

theorem get_eq_ok_iff {d : Dataset} : c.get id = .ok d ↔ c.get? id = some d := by
  unfold get
  cases c.get? id <;> simp

theorem get_eq_error_iff {e : Error} :
    c.get id = .error e ↔ c.get? id = none ∧ e = .notFound id := by
  unfold get
  cases c.get? id <;> simp [eq_comm]

theorem mem_ids_iff : id ∈ c.ids ↔ c.contains id = true := Dictionary.mem_keys_iff

theorem ids_ascending (c : Catalog) : c.ids.Pairwise Text.Before := c.datasets.keys_ascending

theorem mem_list_iff {i : Dataset.Info} :
    i ∈ c.list ↔ ∃ id d, c.get? id = some d ∧ d.info = i := by
  have hentry : ∀ id d, (id, d) ∈ c.datasets.entries ↔ c.get? id = some d :=
    fun id d => Dictionary.mem_entries_iff
  unfold list Dictionary.values
  constructor
  · intro hi
    obtain ⟨d, hd, rfl⟩ := List.mem_map.mp hi
    obtain ⟨⟨id, d⟩, hmem, rfl⟩ := List.mem_map.mp hd
    exact ⟨id, d, (hentry id d).mp hmem, rfl⟩
  · rintro ⟨id, d, hd, rfl⟩
    apply List.mem_map_of_mem
    exact List.mem_map.mpr ⟨(id, d), (hentry id d).mpr hd, rfl⟩

/-- Where each dataset stands under its own id, the list is in the order of the ids. -/
theorem map_id_list (h : ∀ id d, c.get? id = some d → d.id = id) :
    c.list.map Dataset.Info.id = c.ids := by
  have hown : ∀ e ∈ c.datasets.entries, e.2.id = e.1 := by
    intro e he
    exact h e.1 e.2 (Dictionary.mem_entries_iff.mp he)
  unfold list Dictionary.values ids Dictionary.keys
  rw [List.map_map, List.map_map]
  exact List.map_congr_left hown

end Catalog

end Tabular
