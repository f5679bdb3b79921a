import Tabular.Proofs.EntryLists
import Tabular.Proofs.Listings
import Tabular.Proofs.WrittenRows

/-!
# What the text of a list of objects says

Records are read by readers of their own, which take a list of objects and nothing else. Item
by item they read what the reader of values reads, so a text is read as a list of records iff
it is read as a list of objects, and as the same (`readAll_records_iff`).

`WritesObjects` says which members stand in such a text, in their order and with those that
come again under one key; the last of them is the member of the object
(`holdsObjects_iff_writes`).
-/

namespace Tabular.Json

namespace Reader

variable {s rest : List Char}

/-- A record is read as an object with two levels less than there may be. -/
theorem takes_record_iff {es : List (String × Json)} :
    Takes record s es rest ↔ Takes (value (deepest - 1)) s (.object es) rest := by
  show _ ↔ Takes (value (deepest - 2 + 1)) s (.object es) rest
  rw [takes_object_iff]
  constructor
  · rintro ⟨hlt, h⟩
    unfold record at h
    split at h
    next r hs =>
      obtain ⟨t, ht, heq⟩ := map_eq_ok_iff.mp h
      cases heq
      exact ⟨r, hs, t.shorter, ht⟩
    · cases h
  · rintro ⟨r, hs, hes⟩
    exact takes_record hs hes

theorem record_avoids : Avoids record ']' := by
  intro s es rest h
  exact value_avoids _ _ _ _ (takes_record_iff.mp h)

theorem takes_records_iff {objects : List (List (String × Json))} :
    Takes records s objects rest ↔
      ∃ r, skip s = '[' :: r ∧ Enclosed (Takes record) ']' r objects rest := by
  simp only [← takes_items_iff record_avoids]
  constructor
  · rintro ⟨hlt, h⟩
    unfold records at h
    split at h
    next r hs =>
      obtain ⟨t, ht, heq⟩ := map_eq_ok_iff.mp h
      cases heq
      exact ⟨r, hs, t.shorter, ht⟩
    · cases h
  · rintro ⟨r, hs, h⟩
    exact takes_records hs h

/-- A list of records is read as a list of objects. -/
theorem takes_records_iff_array {objects : List (List (String × Json))} :
    Takes records s objects rest ↔
      Takes (value deepest) s (.array (objects.map .object)) rest := by
  show _ ↔ Takes (value (deepest - 1 + 1)) s (.array (objects.map .object)) rest
  have hitem : ∀ s es rest, Takes record s es rest ↔
      ∃ v, Takes (value (deepest - 1)) s v rest ∧ v = .object es := by
    intro s es rest
    rw [takes_record_iff, exists_eq_right]
  simp only [takes_records_iff, takes_array_iff, enclosed_iff_forall₂ hitem,
    ← List.forall₂_map_right_iff (f := Json.object), List.forall₂_eq_eq_eq, exists_eq_right]

end Reader

open Reader

theorem readAll_eq_ok_iff {α : Type} {reader : Reader α} {text : String} {v : α} :
    readAll reader text = .ok v ↔ ∃ rest, Takes reader text.toList v rest ∧ skip rest = [] := by
  unfold readAll finish
  constructor
  · intro h
    split at h
    · cases h
    next taken htaken =>
      split at h
      next hrest =>
        cases h
        exact ⟨taken.rest, ⟨taken.shorter, htaken⟩, hrest⟩
      · cases h
  · rintro ⟨rest, ⟨hlt, h⟩, hrest⟩
    simp only [h, hrest]

/-- A text is read as a list of objects, which have these members. -/
def HoldsObjects (text : String) (objects : List (List (String × Json))) : Prop :=
  Json.read text = .ok (.array (objects.map .object))

/-- **Records are read from the texts of lists of objects**, and as those objects. -/
theorem readAll_records_iff {text : String} {objects : List (List (String × Json))} :
    readAll records text = .ok objects ↔ HoldsObjects text objects := by
  simp only [HoldsObjects, Json.read, readAll_eq_ok_iff, takes_records_iff_array]

/-! ## Members as they are written -/

/-- The characters of a text in front of a rest of it. -/
def front (s rest : List Char) : List Char := s.take (s.length - rest.length)

theorem front_append (t rest : List Char) : front (t ++ rest) rest = t := by
  simp [front]

/-- A member of an object as it is written. -/
structure Written where
  key : String
  value : Json
  /-- The characters of the value. -/
  text : List Char

namespace Written

/-- The member stands at the front of a text: its key, a colon, and its value with at most
`depth` lists and objects around the innermost parts. -/
def At (depth : Nat) (s : List Char) (w : Written) (rest : List Char) : Prop :=
  ∃ r t u, skip s = '"' :: r ∧ Takes characters r w.key t ∧ skip t = ':' :: u ∧
    Takes (Reader.value depth) u w.value rest ∧ w.text = front (skip u) rest

/-- Members stand at the front of a text, as an object. -/
def ObjectAt (depth : Nat) (s : List Char) (ws : List Written) (rest : List Char) : Prop :=
  ∃ r, skip s = '{' :: r ∧ Enclosed (At depth) '}' r ws rest

/-- The last of the members with its key. -/
def Last (ws : List Written) (w : Written) : Prop :=
  ∃ before behind, ws = before ++ w :: behind ∧ ∀ x ∈ behind, x.key ≠ w.key

/-- The entries that the members make when they are bound in turn. -/
def bindings (ws : List Written) : List (String × Json) :=
  (Dictionary.ofList (ws.map fun w => (w.key, w.value))).entries

theorem mem_bindings_iff {ws : List Written} {key : String} {json : Json} :
    (key, json) ∈ bindings ws ↔ ∃ w, Last ws w ∧ w.key = key ∧ w.value = json := by
  rw [bindings, Dictionary.mem_entries_iff, Dictionary.get?_ofList_map_eq_some_iff]
  constructor
  · rintro ⟨before, w, behind, hws, hw, hbehind⟩
    cases hw
    exact ⟨w, ⟨before, behind, hws, hbehind⟩, rfl, rfl⟩
  · rintro ⟨w, ⟨before, behind, hws, hbehind⟩, rfl, rfl⟩
    exact ⟨before, w, behind, hws, rfl, hbehind⟩

/-- The bindings of members are the entries with ascending keys that the last members of each
key are. -/
theorem bindings_eq_iff {ws : List Written} {es : List (String × Json)} :
    bindings ws = es ↔ Ascending es ∧
      ∀ key json, (key, json) ∈ es ↔ ∃ w, Last ws w ∧ w.key = key ∧ w.value = json := by
  simp only [← mem_bindings_iff]
  constructor
  · rintro rfl
    exact ⟨Dictionary.ascending _, fun _ _ => Iff.rfl⟩
  · rintro ⟨hasc, hmem⟩
    apply eq_of_lookup_eq (Dictionary.ascending _) hasc
    intro key
    apply Option.ext
    intro json
    constructor
    · intro h
      exact lookup_of_mem hasc ((hmem key json).mpr (mem_of_lookup h))
    · intro h
      exact lookup_of_mem (Dictionary.ascending _) ((hmem key json).mp (mem_of_lookup h))

theorem takes_member_iff_at (depth : Nat) (s : List Char) (m : String × Json) (rest : List Char) :
    Takes (member (Reader.value depth)) s m rest ↔
      ∃ w, At depth s w rest ∧ (w.key, w.value) = m := by
  obtain ⟨key, json⟩ := m
  rw [takes_member_iff]
  constructor
  · rintro ⟨r, t, u, hs, hkey, ht, hv⟩
    exact ⟨⟨key, json, front (skip u) rest⟩, ⟨r, t, u, hs, hkey, ht, hv, rfl⟩, rfl⟩
  · rintro ⟨w, ⟨r, t, u, hs, hkey, ht, hv, -⟩, hw⟩
    cases hw
    exact ⟨r, t, u, hs, hkey, ht, hv⟩

theorem takes_object_iff_at {depth : Nat} {s rest : List Char} {es : List (String × Json)} :
    Takes (Reader.value (depth + 1)) s (.object es) rest ↔
      ∃ ws, ObjectAt depth s ws rest ∧ bindings ws = es := by
  have hmembers : ∀ r, (∃ ms, Enclosed (Takes (member (Reader.value depth))) '}' r ms rest ∧
      (Dictionary.ofList ms).entries = es) ↔
        ∃ ws, Enclosed (At depth) '}' r ws rest ∧ bindings ws = es := by
    intro r
    simp only [enclosed_iff_forall₂ (takes_member_iff_at depth),
      ← List.forall₂_map_left_iff (f := fun w : Written => (w.key, w.value)),
      List.forall₂_eq_eq_eq]
    constructor
    · rintro ⟨ms, ⟨ws, hws, rfl⟩, hes⟩
      exact ⟨ws, hws, hes⟩
    · rintro ⟨ws, hws, hes⟩
      exact ⟨_, ⟨ws, hws, rfl⟩, hes⟩
  simp only [takes_object_iff, takes_members_iff, hmembers]
  constructor
  · rintro ⟨r, hs, ws, hws, hes⟩
    exact ⟨ws, ⟨r, hs, hws⟩, hes⟩
  · rintro ⟨ws, ⟨r, hs, hws⟩, hes⟩
    exact ⟨r, hs, ws, hws, hes⟩

end Written

/-- The text is a list of objects, with these members in them. -/
def WritesObjects (text : String) (written : List (List Written)) : Prop :=
  ∃ r rest, skip text.toList = '[' :: r ∧
    Enclosed (Written.ObjectAt (deepest - 2)) ']' r written rest ∧ skip rest = []

/-- **The last member of a key counts.** A text is read as a list of objects iff it is one as
it is written, and each object binds its members in turn. -/
theorem holdsObjects_iff_writes {text : String} {objects : List (List (String × Json))} :
    HoldsObjects text objects ↔
      ∃ written, WritesObjects text written ∧
        List.Forall₂ (fun ws es => Written.bindings ws = es) written objects := by
  have hitem : ∀ s es rest, Takes record s es rest ↔
      ∃ ws, Written.ObjectAt (deepest - 2) s ws rest ∧ Written.bindings ws = es := by
    intro s es rest
    rw [takes_record_iff]
    exact Written.takes_object_iff_at
  simp only [← readAll_records_iff, readAll_eq_ok_iff, takes_records_iff,
    enclosed_iff_forall₂ hitem]
  constructor
  · rintro ⟨rest, ⟨r, hs, written, hwritten, hbindings⟩, hrest⟩
    exact ⟨written, ⟨r, rest, hs, hwritten, hrest⟩, hbindings⟩
  · rintro ⟨written, ⟨r, rest, hs, hwritten, hrest⟩, hbindings⟩
    exact ⟨rest, ⟨r, hs, written, hwritten, hbindings⟩, hrest⟩

end Tabular.Json
