import Tabular.Proofs.NamedFields

/-!
# Which names mean a field

A name is taken apart twice: for the dataset that a query is for, at its first underscore,
and for the field that it means, at its only one. The second way is the stricter. It puts
together what it takes apart (`splitQualified_eq_some_iff`), so each field of a dataset has
one qualified name and no name means two fields; and a name that means a field of a dataset
has the dataset's id in front of its first underscore (`Dataset.resolve_exact`).
-/

namespace Tabular

/-- What may stand on either side of the underscore in a qualified name. -/
structure NamePart (s : String) : Prop where
  nonempty : s ≠ ""
  plain : '_' ∉ s.toList

instance (s : String) : Decidable (NamePart s) :=
  decidable_of_iff (s ≠ "" ∧ '_' ∉ s.toList) ⟨fun h => ⟨h.1, h.2⟩, fun h => ⟨h.1, h.2⟩⟩

/-! ## Taking a qualified name apart -/

theorem namePart_of_splitQualified {name dataset field : String}
    (h : splitQualified name = some (dataset, field)) : NamePart dataset ∧ NamePart field := by
  have hfront : ∀ c ∈ name.toList.takeWhile (· ≠ '_'), c ≠ '_' := by
    intro c hc
    simpa using List.all_eq_true.mp List.all_takeWhile c hc
  unfold splitQualified at h
  split at h
  · cases h
  next rest _ =>
    simp only at h
    split at h
    · cases h
    next hparts =>
      obtain ⟨rfl, rfl⟩ := Prod.mk.inj (Option.some.inj h)
      simp only [Bool.or_eq_true, List.isEmpty_iff, not_or, List.contains_iff_mem] at hparts
      obtain ⟨⟨hdataset, hfield⟩, hplain⟩ := hparts
      refine ⟨⟨?_, ?_⟩, ⟨?_, ?_⟩⟩
      · rwa [ne_eq, ← String.toList_eq_nil_iff, String.toList_ofList]
      · rw [String.toList_ofList]
        exact fun hmem => hfront '_' hmem rfl
      · rwa [ne_eq, ← String.toList_eq_nil_iff, String.toList_ofList]
      · rwa [String.toList_ofList]

/-- Two parts that are put together are the parts that are found. -/
theorem splitQualified_qualify {dataset field : String} (hdataset : NamePart dataset)
    (hfield : NamePart field) : splitQualified (qualify dataset field) = some (dataset, field) := by
  have hname : (qualify dataset field).toList = dataset.toList ++ '_' :: field.toList := by
    simp [qualify]
  have hfront : ∀ c ∈ dataset.toList, decide (c ≠ '_') = true := by
    intro c hc
    refine decide_eq_true ?_
    rintro rfl
    exact hdataset.plain hc
  have hdatasetNil : dataset.toList ≠ [] := mt String.toList_eq_nil_iff.mp hdataset.nonempty
  have hfieldNil : field.toList ≠ [] := mt String.toList_eq_nil_iff.mp hfield.nonempty
  have htake : (qualify dataset field).toList.takeWhile (· ≠ '_') = dataset.toList := by
    rw [hname, List.takeWhile_append_of_pos hfront]
    simp
  have hdrop : (qualify dataset field).toList.dropWhile (· ≠ '_') = '_' :: field.toList := by
    rw [hname, List.dropWhile_append_of_pos hfront]
    simp
  unfold splitQualified
  rw [htake, hdrop]
  simp [hdatasetNil, hfieldNil, hfield.plain]

theorem splitQualified_eq_some_iff {name dataset field : String} :
    splitQualified name = some (dataset, field) ↔
      NamePart dataset ∧ NamePart field ∧ name = qualify dataset field := by
  constructor
  · intro h
    obtain ⟨hdataset, hfield⟩ := namePart_of_splitQualified h
    exact ⟨hdataset, hfield, eq_qualify_of_splitQualified h⟩
  · rintro ⟨hdataset, hfield, rfl⟩
    exact splitQualified_qualify hdataset hfield

/-! ## The fields of a dataset -/

namespace Dataset

/-- The keys of the first record; none where there is no record. -/
def fields (d : Dataset) : List String := (d.records.head?.map Dictionary.keys).getD []

/-- A name by the dataset's id that means no field of it. -/
def Lacks (d : Dataset) (name : String) : Prop :=
  NamePart d.id ∧ ∃ field, NamePart field ∧ field ∉ d.fields ∧ name = qualify d.id field

theorem hasField_iff {d : Dataset} {field : String} :
    d.hasField field = true ↔ field ∈ d.fields := by
  unfold hasField fields
  cases d.records with
  | nil => simp
  | cons first rest => exact Dictionary.mem_keys_iff.symm

theorem resolve_eq_ok_iff_qualify {d : Dataset} {name field : String} :
    d.resolve name = .ok field ↔
      (NamePart d.id ∧ NamePart field ∧ field ∈ d.fields) ∧ name = qualify d.id field := by
  rw [resolve_eq_ok_iff, splitQualified_eq_some_iff, hasField_iff]
  constructor
  · rintro ⟨⟨hid, hfield, hname⟩, hmem⟩
    exact ⟨⟨hid, hfield, hmem⟩, hname⟩
  · rintro ⟨⟨hid, hfield, hmem⟩, hname⟩
    exact ⟨⟨hid, hfield, hname⟩, hmem⟩

theorem lacks_iff {d : Dataset} {name : String} :
    d.Lacks name ↔ ∃ field, splitQualified name = some (d.id, field) ∧ d.hasField field = false := by
  simp only [Lacks, splitQualified_eq_some_iff, ← Bool.not_eq_true, hasField_iff]
  constructor
  · rintro ⟨hid, field, hfield, hmem, hname⟩
    exact ⟨field, ⟨hid, hfield, hname⟩, hmem⟩
  · rintro ⟨field, ⟨hid, hfield, hname⟩, hmem⟩
    exact ⟨hid, field, hfield, hmem, hname⟩

/-- A name that means no field is unknown if it is by the dataset's id, and foreign else. -/
theorem resolve_eq_error_iff_lacks {d : Dataset} {name : String} {e : Error} :
    d.resolve name = .error e ↔
      (d.Lacks name ∧ e = .unknownField name d.id) ∨
      (¬ d.Lacks name ∧ (∀ field, d.resolve name ≠ .ok field) ∧ e = .foreignField name d.id) := by
  rw [resolve_eq_error_iff, lacks_iff]
  constructor
  · rintro (⟨hforeign, he⟩ | ⟨field, hsplit, hno, he⟩)
    · refine .inr ⟨?_, ?_, he⟩
      · rintro ⟨field, hsplit, -⟩
        exact hforeign field hsplit
      · intro field hok
        exact hforeign field (resolve_eq_ok_iff.mp hok).1
    · exact .inl ⟨⟨field, hsplit, hno⟩, he⟩
  · rintro (⟨⟨field, hsplit, hno⟩, he⟩ | ⟨hlacks, hnone, he⟩)
    · exact .inr ⟨field, hsplit, hno, he⟩
    · refine .inl ⟨?_, he⟩
      -- By the dataset's id the name would mean a field, or the dataset would lack it.
      intro field hsplit
      cases hhas : d.hasField field with
      | true => exact hnone field (resolve_eq_ok_iff.mpr ⟨hsplit, hhas⟩)
      | false => exact hlacks ⟨field, hsplit, hhas⟩

end Dataset

theorem Query.datasetId_of_resolve {q : Query} {d : Dataset} {column field : String}
    (hcolumn : q.options.columns.head? = some column) (h : d.resolve column = .ok field) :
    q.datasetId = d.id := by
  unfold datasetId
  rw [hcolumn]
  exact (parts_of_splitQualified (Dataset.resolve_eq_ok_iff.mp h).1).1

/-- **Names and fields.** A field has a name in a dataset iff the id and the field can be
parts of a name and the first record has the field; the name is then the one that is put
together from them. A name by the dataset's id and another part is unknown, and every other
name that means no field is foreign. A query whose first column means a field of a dataset is
for that dataset. -/
theorem Dataset.resolve_exact (d : Dataset) :
    (∀ field, (∃ name, d.resolve name = .ok field) ↔
      NamePart d.id ∧ NamePart field ∧ field ∈ d.fields) ∧
    (∀ name field, d.resolve name = .ok field →
      name = qualify d.id field ∧ ∀ other, d.resolve other = .ok field → other = name) ∧
    (∀ name e, d.resolve name = .error e ↔
      (d.Lacks name ∧ e = .unknownField name d.id) ∨
      (¬ d.Lacks name ∧ (∀ field, d.resolve name ≠ .ok field) ∧ e = .foreignField name d.id)) ∧
    ∀ q : Query, ∀ column field, q.options.columns.head? = some column →
      d.resolve column = .ok field → q.datasetId = d.id := by
  refine ⟨?_, ?_, fun name e => resolve_eq_error_iff_lacks, ?_⟩
  · intro field
    simp only [resolve_eq_ok_iff_qualify, exists_and_left, exists_eq, and_true]
  · intro name field h
    have hname := qualify_of_resolve h
    refine ⟨hname, ?_⟩
    intro other hother
    rw [hname, qualify_of_resolve hother]
  · intro q column field hcolumn h
    exact Query.datasetId_of_resolve hcolumn h

/-- Among the sample rooms seats have one name, no room has an area, and underscores in front,
behind or in the middle make a name foreign. No name means a field of rooms whose id has an
underscore. -/
theorem sampleRooms_names :
    let shared : Dataset := ⟨"my_rooms", .rooms, sampleRooms.records⟩
    let q : Query := ⟨.everything, ⟨["rooms_seats", "my_rooms_seats"], none, []⟩⟩
    sampleRooms.resolve "rooms_seats" = .ok "seats" ∧
      (∀ other, sampleRooms.resolve other = .ok "seats" → other = "rooms_seats") ∧
      q.datasetId = "rooms" ∧
      sampleRooms.resolve "rooms_area" = .error (.unknownField "rooms_area" "rooms") ∧
      (∀ name ∈ ["rooms", "_seats", "rooms_", "rooms__seats", "rooms_seats_", "_", ""],
        sampleRooms.resolve name = .error (.foreignField name "rooms") ∧
          ¬ sampleRooms.Lacks name) ∧
      ∀ name, shared.resolve name ≠ .ok "seats" := by
  intro shared q
  have hseats : sampleRooms.resolve "rooms_seats" = .ok "seats" := by decide +kernel
  obtain ⟨-, hunique, herror, hquery⟩ := sampleRooms.resolve_exact
  refine ⟨hseats, (hunique _ _ hseats).2, hquery q _ _ rfl hseats, ?_, ?_, ?_⟩
  · refine (herror _ _).mpr (.inl ⟨⟨by decide, "area", by decide, by decide +kernel, ?_⟩, rfl⟩)
    decide
  · intro name hname
    have hforeign : sampleRooms.resolve name = .error (.foreignField name "rooms") := by
      revert name
      decide +kernel
    rcases (herror _ _).mp hforeign with ⟨-, he⟩ | ⟨hlacks, -, -⟩
    · cases he
    · exact ⟨hforeign, hlacks⟩
  · intro name h
    have hid : NamePart shared.id := ((shared.resolve_exact.1 "seats").mp ⟨name, h⟩).1
    exact absurd hid (by decide)

end Tabular
