import Tabular.Proofs.EntryLists
import Tabular.Proofs.Listings

/-!
# The values of texts are ordered

An object keeps its members under ascending keys. The reader binds members one after
the other and so keeps the order at every depth (`ordered_of_read`): whatever is
said of ordered values is said of all that are read.
-/

namespace Tabular.Json

theorem orderedItems_iff {items : List Json} :
    OrderedItems items ↔ ∀ item ∈ items, item.Ordered := by
  induction items with
  | nil => simp [OrderedItems]
  | cons item items ih => rw [OrderedItems, ih, List.forall_mem_cons]

theorem orderedMembers_iff {members : List (String × Json)} :
    OrderedMembers members ↔ ∀ member ∈ members, member.2.Ordered := by
  induction members with
  | nil => simp [OrderedMembers]
  | cons member members ih => rw [OrderedMembers, ih, List.forall_mem_cons]

namespace Reader

/-- What a reader reads is ordered. -/
def Orders (reader : Reader Json) : Prop := ∀ s v rest, Takes reader s v rest → v.Ordered

variable {reader : Reader Json} {s rest : List Char}

theorem Orders.array (hreader : Orders reader) {vs : List Json}
    (h : Enclosed (Takes reader) ']' s vs rest) : (array vs).Ordered := by
  refine orderedItems_iff.mpr ?_
  intro v hv
  obtain ⟨s, rest, hitem⟩ := h.exists_item hv
  exact hreader s v rest hitem

theorem Orders.object (hreader : Orders reader) {es : List (String × Json)}
    (h : Takes (members reader) s es rest) : (object es).Ordered := by
  obtain ⟨ms, hms, rfl⟩ := takes_members_iff.mp h
  refine ⟨Dictionary.ascending _, orderedMembers_iff.mpr ?_⟩
  rintro ⟨key, v⟩ he
  rw [Dictionary.mem_entries_iff, ← List.map_id ms, Dictionary.get?_ofList_map_eq_some_iff] at he
  obtain ⟨before, m, behind, rfl, hm, -⟩ := he
  cases hm
  obtain ⟨s, rest, hmember⟩ := hms.exists_item (v := (key, v)) (by simp)
  obtain ⟨r, t, u, -, -, -, hv⟩ := takes_member_iff.mp hmember
  exact hreader u v rest hv

theorem valueWith_orders {inner : Option (Reader Json)}
    (hinner : ∀ item, inner = some item → Orders item) : Orders (valueWith inner) := by
  intro s v rest h
  obtain ⟨c, r, -, -, hv⟩ := valueWith_cases h
  cases v with
  | null | bool | number | string => trivial
  | array vs =>
    obtain ⟨-, item, hitem, hvs⟩ := hv
    exact (hinner item hitem).array (enclosed_of_items hvs)
  | object ms =>
    obtain ⟨-, item, hitem, hms⟩ := hv
    exact (hinner item hitem).object hms

theorem value_orders (depth : Nat) : Orders (value depth) := by
  -- The values inside are read with one level less, and none inside at the last.
  induction depth with
  | zero => exact valueWith_orders fun item h => by cases h
  | succ depth ih =>
    refine valueWith_orders ?_
    intro item h
    cases h
    exact ih

end Reader

/-- **What is read is ordered.** -/
theorem ordered_of_read {text : String} {v : Json} (h : Json.read text = .ok v) :
    v.Ordered := by
  unfold Json.read readAll at h
  split at h
  · cases h
  next taken htaken =>
    unfold finish at h
    split at h
    · cases h
      exact Reader.value_orders deepest _ _ _ ⟨taken.shorter, htaken⟩
    · cases h

end Tabular.Json
