import Tabular.Proofs.CodePoints
import Tabular.Proofs.ObjectText
import Tabular.Proofs.OrderedJson

/-!
# Which texts hold records

Records are read in two passes: the text as a list of objects, and then the members of the
objects as fields, object by object and key by key. Each pass over a list is a `mapM`
(`fieldsOfMembers_eq_mapM`, `recordsOfObjects_eq_mapM`), so it succeeds iff every item does and
fails as the first that does not. Since an object keeps its keys ascending, the first of its
members that is no field is the one with the smallest key.

`readRecords_exact` puts this together for every text, from the members as they are written
to the records or to the error.
-/

namespace Tabular

/-! ## What a field has of a JSON value -/

/-- The value that a field has of a text or a number. -/
inductive Value.Of : Json → Value → Prop
  | text (s : String) : Of (.string s) (.text s)
  | number (n : Json.Number) : Of (.number n) (.number n.toBinary64)

/-- A value of JSON that a field can have. -/
def Json.Storable : Json → Prop
  | .string _ | .number _ => True
  | .null | .bool _ | .array _ | .object _ => False

instance : DecidablePred Json.Storable
  | .string _ | .number _ => .isTrue trivial
  | .null | .bool _ | .array _ | .object _ => .isFalse id

theorem Value.ofJson?_eq_some_iff {json : Json} {value : Value} :
    ofJson? json = some value ↔ Of json value := by
  constructor
  · intro h
    unfold ofJson? at h
    split at h
    · cases h
      exact .text _
    · cases h
      exact .number _
    · cases h
  · intro h
    cases h <;> rfl

theorem Value.Of.unique {json : Json} {value value' : Value} (h : Of json value)
    (h' : Of json value') : value = value' := by
  cases h <;> cases h' <;> rfl

theorem Value.exists_of_iff {json : Json} : (∃ value, Of json value) ↔ json.Storable := by
  constructor
  · rintro ⟨value, h⟩
    cases h <;> exact trivial
  · intro h
    cases json with
    | string s => exact ⟨_, .text s⟩
    | number n => exact ⟨_, .number n⟩
    | null | bool | array | object => cases h

/-- A record has the fields that the members of an object say, and no others. -/
def Record.Binds (members : List (String × Json)) (record : Record) : Prop :=
  ∀ key value, record.get? key = some value ↔ ∃ json, (key, json) ∈ members ∧ Value.Of json value

/-! ## One object -/

/-- One member as a field. -/
def fieldOfMember (m : String × Json) : Except (String × Json) (String × Value) :=
  match Value.ofJson? m.2 with
  | some value => .ok (m.1, value)
  | none => .error m

theorem fieldsOfMembers_eq_mapM (members : List (String × Json)) :
    fieldsOfMembers members = members.mapM fieldOfMember := by
  induction members with
  | nil => rfl
  | cons m members ih =>
    obtain ⟨key, json⟩ := m
    rw [fieldsOfMembers, mapM_cons_except, ← ih, fieldOfMember]
    cases Value.ofJson? json <;> rfl

theorem fieldOfMember_eq_ok_iff {m : String × Json} {field : String × Value} :
    fieldOfMember m = .ok field ↔ field.1 = m.1 ∧ Value.Of m.2 field.2 := by
  obtain ⟨key, value⟩ := field
  rw [← Value.ofJson?_eq_some_iff, fieldOfMember]
  cases Value.ofJson? m.2 <;> simp [eq_comm]

theorem fieldOfMember_eq_error_iff {m bad : String × Json} :
    fieldOfMember m = .error bad ↔ m = bad ∧ ¬ m.2.Storable := by
  rw [← Value.exists_of_iff, fieldOfMember]
  simp only [← Value.ofJson?_eq_some_iff]
  cases Value.ofJson? m.2 <;> simp

/-- The fields of an object with distinct keys make the record that it binds. -/
theorem binds_of_fieldsOfMembers {members : List (String × Json)} (hasc : Ascending members)
    {fields : List (String × Value)} (h : fieldsOfMembers members = .ok fields) :
    Record.Binds members (Dictionary.ofList fields) := by
  rw [fieldsOfMembers_eq_mapM, mapM_eq_ok_iff] at h
  simp only [fieldOfMember_eq_ok_iff] at h
  have hkeys : fields.map (·.1) = members.map (·.1) := by
    rw [← List.forall₂_eq_eq_eq, List.forall₂_map_left_iff, List.forall₂_map_right_iff]
    exact h.flip.imp fun _ _ hfield => hfield.1
  have hnodup : (fields.map (·.1)).Nodup := by
    rw [hkeys]
    exact (List.pairwise_map.mpr hasc).imp Text.Before.ne
  intro key value
  rw [Dictionary.get?_ofList hnodup, lookup_eq_some_iff hnodup]
  constructor
  · intro hmem
    obtain ⟨⟨key', json⟩, hmem', hkey, hof⟩ := exists_of_mem_forall₂ h hmem
    cases hkey
    exact ⟨json, hmem', hof⟩
  · rintro ⟨json, hmem, hof⟩
    obtain ⟨⟨key', value'⟩, hmem', hkey, hof'⟩ := exists_of_mem_forall₂ h.flip hmem
    cases hkey
    cases hof.unique hof'
    exact hmem'

/-- Of the members that are no fields the one with the smallest key is refused. -/
theorem fieldsOfMembers_eq_error {members : List (String × Json)} (hasc : Ascending members)
    {key : String} {json : Json} (h : fieldsOfMembers members = .error (key, json)) :
    (key, json) ∈ members ∧ ¬ json.Storable ∧
      ∀ m ∈ members, ¬ m.2.Storable → ¬ Text.Before m.1 key := by
  rw [fieldsOfMembers_eq_mapM, mapM_eq_error_iff] at h
  obtain ⟨front, bad, back, rfl, hfront, hbad⟩ := h
  obtain ⟨rfl, hunfit⟩ := fieldOfMember_eq_error_iff.mp hbad
  refine ⟨by simp, hunfit, ?_⟩
  intro m hm hmunfit
  rcases List.mem_append.mp hm with hm | hm
  · obtain ⟨field, hfield⟩ := hfront m hm
    exact absurd (Value.exists_of_iff.mp ⟨_, (fieldOfMember_eq_ok_iff.mp hfield).2⟩) hmunfit
  · rcases List.mem_cons.mp hm with rfl | hm
    · exact Text.not_before_self _
    · have hbehind := (List.pairwise_append.mp hasc).2.1
      exact (List.rel_of_pairwise_cons hbehind hm).asymm

/-! ## The objects in turn -/

/-- One object as the record with the given number. -/
def recordOfObject (object : List (String × Json) × Nat) : Except RecordsFault Record :=
  match fieldsOfMembers object.1 with
  | .ok fields => .ok (Dictionary.ofList fields)
  | .error (key, json) => .error (.member object.2 key json.compact)

theorem recordsOfObjects_eq_mapM (start : Nat) (objects : List (List (String × Json))) :
    recordsOfObjects start objects = (objects.zipIdx start).mapM recordOfObject := by
  induction objects generalizing start with
  | nil => rfl
  | cons object objects ih =>
    rw [recordsOfObjects, List.zipIdx_cons, mapM_cons_except, ← ih, recordOfObject]
    rcases fieldsOfMembers object with ⟨key, json⟩ | fields <;> rfl

variable {object : List (String × Json) × Nat} {objects : List (List (String × Json))}

theorem recordOfObject_eq_ok_iff {record : Record} :
    recordOfObject object = .ok record ↔
      ∃ fields, fieldsOfMembers object.1 = .ok fields ∧ Dictionary.ofList fields = record := by
  rw [recordOfObject]
  rcases fieldsOfMembers object.1 with ⟨key, json⟩ | fields <;> simp

theorem recordOfObject_eq_error_iff {fault : RecordsFault} :
    recordOfObject object = .error fault ↔
      ∃ key json, fieldsOfMembers object.1 = .error (key, json) ∧
        fault = .member object.2 key json.compact := by
  rw [recordOfObject]
  rcases fieldsOfMembers object.1 with ⟨key, json⟩ | fields <;> simp [eq_comm]

/-- An object makes a record iff its members can all be fields. -/
theorem exists_recordOfObject_iff :
    (∃ record, recordOfObject object = .ok record) ↔ ∀ m ∈ object.1, m.2.Storable := by
  have hmember : ∀ m : String × Json,
      (∃ field, fieldOfMember m = .ok field) ↔ m.2.Storable := by
    intro m
    simp only [fieldOfMember_eq_ok_iff, ← Value.exists_of_iff, Prod.exists, exists_and_left,
      exists_eq_left]
  simp only [← hmember, ← exists_mapM_eq_ok_iff, ← fieldsOfMembers_eq_mapM,
    recordOfObject_eq_ok_iff]
  constructor
  · rintro ⟨_, fields, hfields, -⟩
    exact ⟨fields, hfields⟩
  · rintro ⟨fields, hfields⟩
    exact ⟨_, fields, hfields, rfl⟩

theorem exists_recordsOfObjects_iff {start : Nat} :
    (∃ records, recordsOfObjects start objects = .ok records) ↔
      ∀ object ∈ objects, ∀ m ∈ object, m.2.Storable := by
  rw [recordsOfObjects_eq_mapM, exists_mapM_eq_ok_iff]
  simp only [exists_recordOfObject_iff]
  conv_rhs => rw [← List.zipIdx_map_fst start objects, List.forall_mem_map]

theorem binds_of_recordsOfObjects (hasc : ∀ object ∈ objects, Ascending object) {start : Nat}
    {records : List Record} (h : recordsOfObjects start objects = .ok records) :
    List.Forall₂ Record.Binds objects records := by
  rw [recordsOfObjects_eq_mapM, mapM_eq_ok_iff] at h
  simp only [recordOfObject_eq_ok_iff] at h
  rw [← List.forall₂_map_left_iff (f := Prod.fst) (R := fun members record =>
    ∃ fields, fieldsOfMembers members = .ok fields ∧ Dictionary.ofList fields = record),
    List.zipIdx_map_fst] at h
  refine ((List.forall₂_and_left _ _).mpr ⟨hasc, h⟩).imp ?_
  rintro members record ⟨hmembers, fields, hfields, rfl⟩
  exact binds_of_fieldsOfMembers hmembers hfields

/-- The first member that can be no field: in the first object that has one, and there under
the smallest key by code points. -/
structure FirstUnstorable (objects : List (List (String × Json))) (i : Nat) (key : String)
    (json : Json) : Prop where
  unstorable : ¬ json.Storable
  smallest : ∃ object, objects[i]? = some object ∧ (key, json) ∈ object ∧
    ∀ m ∈ object, ¬ m.2.Storable →
      (compare (Text.codePoints key) (Text.codePoints m.1)).isLE = true
  before : ∀ j < i, ∀ object, objects[j]? = some object → ∀ m ∈ object, m.2.Storable

theorem firstUnstorable_of_recordsOfObjects (hasc : ∀ object ∈ objects, Ascending object)
    {fault : RecordsFault} (h : recordsOfObjects 0 objects = .error fault) :
    ∃ i key json, FirstUnstorable objects i key json ∧ fault = .member i key json.compact := by
  rw [recordsOfObjects_eq_mapM, mapM_eq_error_iff] at h
  obtain ⟨front, ⟨object, i⟩, back, hobjects, hfront, hfault⟩ := h
  obtain ⟨key, json, hfields, rfl⟩ := recordOfObject_eq_error_iff.mp hfault
  have hplace : ∀ j : Nat, objects[j]?.map (fun object => (object, j)) =
      (front ++ (object, i) :: back)[j]? := by
    intro j
    rw [← hobjects, List.getElem?_zipIdx]
    simp
  have hi := hplace front.length
  rw [List.getElem?_append_right (Nat.le_refl _), Nat.sub_self, List.getElem?_cons_zero,
    Option.map_eq_some_iff] at hi
  obtain ⟨object', hobject, heq⟩ := hi
  cases heq
  obtain ⟨hmem, hunstorable, hsmallest⟩ :=
    fieldsOfMembers_eq_error (hasc _ (List.mem_of_getElem? hobject)) hfields
  refine ⟨_, key, json, ⟨hunstorable, ⟨object, hobject, hmem, ?_⟩, ?_⟩, rfl⟩
  · intro m hm hmunstorable
    exact Text.isLE_compare_codePoints_iff.mpr (hsmallest m hm hmunstorable)
  · intro j hj earlier hearlier
    have hearlier' := hplace j
    rw [hearlier, List.getElem?_append_left hj] at hearlier'
    exact exists_recordOfObject_iff.mp (hfront _ (List.mem_of_getElem? hearlier'.symm))

/-! ## From the text to the records -/

theorem readRecords_of_read {text : String} (h : Json.HoldsObjects text objects) :
    readRecords text = recordsOfObjects 0 objects := by
  rw [readRecords, Json.readAll_records_iff.mpr h]

theorem readRecords_eq_ok_iff {text : String} {records : List Record} :
    readRecords text = .ok records ↔
      ∃ objects, Json.HoldsObjects text objects ∧ recordsOfObjects 0 objects = .ok records := by
  constructor
  · intro h
    cases hread : Json.readAll Json.Reader.records text with
    | error complaint =>
      rw [readRecords, hread] at h
      cases h
    | ok objects =>
      rw [readRecords, hread] at h
      exact ⟨objects, Json.readAll_records_iff.mp hread, h⟩
  · rintro ⟨objects, hread, h⟩
    rwa [readRecords_of_read hread]

/-- What is read as objects has ascending keys. -/
theorem ascending_of_read {text : String} (h : Json.HoldsObjects text objects) :
    ∀ object ∈ objects, Ascending object := by
  intro object hobject
  have hordered := Json.orderedItems_iff.mp (Json.ordered_of_read h)
  exact (hordered _ (List.mem_map_of_mem hobject)).1

/-- What is written as a list of objects is read as the bindings of the members. -/
theorem holdsObjects_bindings {text : String} {written : List (List Json.Written)}
    (h : Json.WritesObjects text written) :
    Json.HoldsObjects text (written.map Json.Written.bindings) := by
  refine Json.holdsObjects_iff_writes.mpr ⟨written, h, ?_⟩
  rw [List.forall₂_map_right_iff]
  exact List.forall₂_same.mpr fun _ _ => rfl

/-- Each record has the fields that the members of its object say, as they are written. -/
theorem binds_written {text : String} {records : List Record}
    (h : readRecords text = .ok records) {written : List (List Json.Written)}
    (hwritten : Json.WritesObjects text written) :
    List.Forall₂ (fun ws => Record.Binds (Json.Written.bindings ws)) written records := by
  have hholds := holdsObjects_bindings hwritten
  rw [readRecords_of_read hholds] at h
  exact List.forall₂_map_left_iff.mp (binds_of_recordsOfObjects (ascending_of_read hholds) h)

/-- The last member of a key is stored. -/
theorem exists_get?_of_written {text : String} {records : List Record}
    (h : readRecords text = .ok records) {written : List (List Json.Written)}
    (hwritten : Json.WritesObjects text written) {i : Nat} {ws : List Json.Written}
    (hws : written[i]? = some ws) {w : Json.Written} (hw : Json.Written.Last ws w) :
    ∃ record value, records[i]? = some record ∧ record.get? w.key = some value ∧
      Value.Of w.value value := by
  have hmem : (w.key, w.value) ∈ Json.Written.bindings ws :=
    Json.Written.mem_bindings_iff.mpr ⟨w, hw, rfl, rfl⟩
  have hstorable : w.value.Storable := by
    have hholds := holdsObjects_bindings hwritten
    rw [readRecords_of_read hholds] at h
    exact exists_recordsOfObjects_iff.mp ⟨_, h⟩ _
      (List.mem_map_of_mem (List.mem_of_getElem? hws)) _ hmem
  obtain ⟨value, hof⟩ := Value.exists_of_iff.mpr hstorable
  obtain ⟨record, hrecord, hbinds⟩ := getElem?_of_forall₂ (binds_written h hwritten) hws
  exact ⟨record, value, hrecord, (hbinds _ _).mpr ⟨w.value, hmem, hof⟩, hof⟩

theorem exists_written {text : String} {records : List Record}
    (h : readRecords text = .ok records) : ∃ written, Json.WritesObjects text written := by
  obtain ⟨objects, hread, -⟩ := readRecords_eq_ok_iff.mp h
  obtain ⟨written, hwritten, -⟩ := Json.holdsObjects_iff_writes.mp hread
  exact ⟨written, hwritten⟩

/-- **Which texts hold records.** A text holds records iff it is a list of objects whose
members are texts and numbers, and then the records are those that the objects bind, in turn.
If a member of the objects is anything else, the first such member is refused with its place
and its value, and nothing is read. An object has of each key the last member that is written
under it. -/
theorem readRecords_exact (text : String) :
    ((∃ records, readRecords text = .ok records) ↔
      ∃ objects, Json.HoldsObjects text objects ∧
        ∀ object ∈ objects, ∀ m ∈ object, m.2.Storable) ∧
    (∀ records objects, readRecords text = .ok records →
      Json.HoldsObjects text objects →
        List.Forall₂ Record.Binds objects records) ∧
    (∀ objects, Json.HoldsObjects text objects →
      (∃ object ∈ objects, ∃ m ∈ object, ¬ m.2.Storable) →
        ∃ i key json, FirstUnstorable objects i key json ∧
          readRecords text = .error (.member i key json.compact)) ∧
    ∀ objects, Json.HoldsObjects text objects ↔
      ∃ written, Json.WritesObjects text written ∧
        List.Forall₂ (fun ws object => Ascending object ∧ ∀ key json,
          (key, json) ∈ object ↔
            ∃ w, Json.Written.Last ws w ∧ w.key = key ∧ w.value = json) written objects := by
  refine ⟨?_, ?_, ?_, ?_⟩
  · simp only [readRecords_eq_ok_iff, ← @exists_recordsOfObjects_iff _ 0]
    constructor
    · rintro ⟨records, objects, hread, hrecords⟩
      exact ⟨objects, hread, records, hrecords⟩
    · rintro ⟨objects, hread, records, hrecords⟩
      exact ⟨records, objects, hread, hrecords⟩
  · intro records objects hrecords hread
    rw [readRecords_of_read hread] at hrecords
    exact binds_of_recordsOfObjects (ascending_of_read hread) hrecords
  · rintro objects hread ⟨object, hobject, m, hm, hunstorable⟩
    rw [readRecords_of_read hread]
    cases hrecords : recordsOfObjects 0 objects with
    | ok records =>
      exact absurd (exists_recordsOfObjects_iff.mp ⟨records, hrecords⟩ object hobject m hm)
        hunstorable
    | error fault =>
      obtain ⟨i, key, json, hfirst, rfl⟩ :=
        firstUnstorable_of_recordsOfObjects (ascending_of_read hread) hrecords
      exact ⟨i, key, json, hfirst, rfl⟩
  · intro objects
    simp only [Json.holdsObjects_iff_writes, Json.Written.bindings_eq_iff]

/-- A last text makes a field of a key that was bound to a truth value before, and a last list
spoils one that was bound to a number. Of the members that are no fields the one under `a`
comes first, also in front of one that is written before it. -/
theorem repeatedKeys_read :
    let fit := "[\x7b\"a\":true,\"b\":2,\"a\":\"x\"\x7d,\x7b\x7d]"
    let unfit := "[\x7b\"a\":null,\"a\":1\x7d," ++
      "\x7b\"é\":false,\"a\":1,\"z\":\"t\",\"a\":[ 1, null ]\x7d,\x7b\"A\":null\x7d]"
    (∃ objects, Json.HoldsObjects fit objects ∧
      List.Forall₂ Record.Binds objects
        [Dictionary.ofList [("a", .text "x"), ("b", .number ⟨0x4000000000000000⟩)], .empty]) ∧
      ∃ objects json, Json.HoldsObjects unfit objects ∧
        FirstUnstorable objects 1 "a" json ∧ json.compact = "[1,null]" := by
  intro fit unfit
  obtain ⟨hfit, hbinds, -⟩ := readRecords_exact fit
  obtain ⟨hunfit, -, hfirst, -⟩ := readRecords_exact unfit
  have hrecords : readRecords fit =
      .ok [Dictionary.ofList [("a", .text "x"), ("b", .number ⟨0x4000000000000000⟩)], .empty] := by
    decide +kernel
  have hrefused : readRecords unfit = .error (.member 1 "a" "[1,null]") := by decide +kernel
  constructor
  · obtain ⟨objects, hread, -⟩ := hfit.mp ⟨_, hrecords⟩
    exact ⟨objects, hread, hbinds _ objects hrecords hread⟩
  · cases hread : Json.readAll Json.Reader.records unfit with
    | error complaint =>
      rw [readRecords, hread] at hrefused
      cases hrefused
    | ok objects =>
      have hread := Json.readAll_records_iff.mp hread
      have hsome : ∃ object ∈ objects, ∃ m ∈ object, ¬ m.2.Storable := by
        by_contra hnone
        simp only [not_exists, not_and, not_not] at hnone
        obtain ⟨records, hrecords⟩ := hunfit.mpr ⟨objects, hread, hnone⟩
        rw [hrefused] at hrecords
        cases hrecords
      obtain ⟨i, key, json, hunstorable, herror⟩ := hfirst objects hread hsome
      rw [hrefused] at herror
      obtain ⟨rfl, rfl, hjson⟩ := RecordsFault.member.inj (Except.error.inj herror)
      exact ⟨objects, json, hread, hunstorable, hjson.symm⟩

end Tabular
