import Mathlib.Data.List.Induction
import Tabular.Dictionary

/-!
# Entry lists and the dictionaries made from them

What a list of entries answers when each entry is made from its key, and what keys
it has after a binding. A dictionary that is made from entries with distinct keys has
just these bindings.
-/

namespace Tabular

variable {α β : Type}

/-- Entries made from those keys that have a value answer with that value. -/
theorem lookup_filterMap (f : String → Option α) (keys : List String) (k : String) :
    lookup k (keys.filterMap fun key => (f key).map fun value => (key, value)) =
      if k ∈ keys then f k else none := by
  induction keys with
  | nil => rfl
  | cons key keys ih =>
    rw [List.filterMap_cons]
    cases hf : f key with
    | none =>
      show lookup k (keys.filterMap _) = _
      rw [ih]
      by_cases hk : k = key
      · simp [hk, hf]
      · simp [hk]
    | some value =>
      show (if key = k then some value else lookup k (keys.filterMap _)) = _
      rw [ih]
      by_cases hk : key = k
      · simp [← hk, hf]
      · simp [hk, Ne.symm hk]

theorem lookup_map (f : String → α) (keys : List String) (k : String) :
    lookup k (keys.map fun key => (key, f key)) = if k ∈ keys then some (f k) else none := by
  rw [← lookup_filterMap fun key => some (f key)]
  simp

/-- A key is bound iff it is among the keys. -/
theorem lookup_isSome_iff {k : String} {entries : List (String × α)} :
    (lookup k entries).isSome = true ↔ k ∈ entries.map (·.1) := by
  rw [← Option.not_isNone, Bool.not_eq_true', ← Bool.not_eq_true, Option.isNone_iff_eq_none,
    lookup_eq_none_iff]
  simp

/-- Among the keys that pass a test, a binding of one that does not changes nothing. -/
theorem filter_keys_put {p : String → Bool} {key : String} (hp : p key = false) (value : α)
    (entries : List (String × α)) :
    ((put key value entries).map (·.1)).filter p = (entries.map (·.1)).filter p := by
  induction entries with
  | nil => simp [put, hp]
  | cons entry rest ih =>
    rw [put]
    split
    · simp [hp]
    next heq =>
      have hkey : key = entry.1 := Text.eq_of_order heq
      simp [← hkey, hp]
    · rw [List.map_cons, List.filter_cons, List.map_cons, List.filter_cons, ih]

/-! ## Distinct keys -/

theorem lookup_eq_some_iff {entries : List (String × α)} (h : (entries.map (·.1)).Nodup)
    {k : String} {v : α} : lookup k entries = some v ↔ (k, v) ∈ entries := by
  refine ⟨mem_of_lookup, ?_⟩
  induction entries with
  | nil =>
    intro hv
    cases hv
  | cons entry rest ih =>
    obtain ⟨hhead, hrest⟩ := List.nodup_cons.mp h
    intro hv
    rcases List.mem_cons.mp hv with rfl | hv
    · simp [lookup]
    · have hne : entry.1 ≠ k := by
        intro heq
        exact hhead (List.mem_map.mpr ⟨(k, v), hv, heq.symm⟩)
      rw [lookup, if_neg hne]
      exact ih hrest hv

namespace Dictionary

theorem get?_foldl_insert {entries : List (String × α)} (h : (entries.map (·.1)).Nodup)
    (d : Dictionary α) (k : String) :
    (entries.foldl (fun d e => d.insert e.1 e.2) d).get? k =
      (lookup k entries).or (d.get? k) := by
  induction entries generalizing d with
  | nil => rfl
  | cons entry rest ih =>
    obtain ⟨hhead, hrest⟩ := List.nodup_cons.mp h
    rw [List.foldl_cons, ih hrest, get?_insert, lookup]
    by_cases hk : entry.1 = k
    · have hnone : lookup k rest = none := by
        rw [lookup_eq_none_iff]
        intro e he heq
        exact hhead (List.mem_map.mpr ⟨e, he, heq.trans hk.symm⟩)
      rw [if_pos hk, if_pos hk, hnone]
      rfl
    · rw [if_neg hk, if_neg hk]

/-- A dictionary made from entries with distinct keys answers as they do. -/
theorem get?_ofList {entries : List (String × α)} (h : (entries.map (·.1)).Nodup) (k : String) :
    (ofList entries).get? k = lookup k entries := by
  rw [ofList, get?_foldl_insert h, get?_empty, Option.or_none]

/-- A dictionary made from entries answers with the last entry of a key. -/
theorem get?_ofList_map_eq_some_iff {γ : Type} {f : γ → String × α} {xs : List γ} {k : String}
    {v : α} : (ofList (xs.map f)).get? k = some v ↔
      ∃ before x behind, xs = before ++ x :: behind ∧ f x = (k, v) ∧
        ∀ y ∈ behind, (f y).1 ≠ k := by
  induction xs using List.reverseRecOn with
  | nil => simp [ofList]
  | append_singleton xs x ih =>
    rw [List.map_append, ofList, List.foldl_append]
    show ((ofList (xs.map f)).insert (f x).1 (f x).2).get? k = some v ↔ _
    rw [get?_insert]
    constructor
    · intro h
      split at h
      next hk =>
        cases h
        exact ⟨xs, x, [], rfl, by rw [← hk], by simp⟩
      next hk =>
        obtain ⟨before, y, behind, rfl, hy, hbehind⟩ := ih.mp h
        refine ⟨before, y, behind ++ [x], by simp, hy, ?_⟩
        intro z hz
        rcases List.mem_append.mp hz with hz | hz
        · exact hbehind z hz
        · rwa [List.mem_singleton.mp hz]
    · rintro ⟨before, y, behind, hxs, hy, hbehind⟩
      -- The new entry is the one, or stands behind it and has another key.
      rcases List.eq_nil_or_concat behind with rfl | ⟨behind, z, rfl⟩
      · obtain ⟨-, hx⟩ := List.append_inj' hxs rfl
        cases hx
        simp [hy]
      · rw [List.concat_eq_append] at hxs hbehind
        rw [← List.cons_append, ← List.append_assoc] at hxs
        obtain ⟨rfl, hx⟩ := List.append_inj' hxs rfl
        cases hx
        rw [if_neg (hbehind x (by simp))]
        refine ih.mpr ⟨before, y, behind, rfl, hy, ?_⟩
        intro z hz
        exact hbehind z (List.mem_append_left _ hz)

theorem nodup_keys (d : Dictionary α) : d.keys.Nodup :=
  d.keys_ascending.imp Text.Before.ne

/-- A dictionary is made from its own entries. -/
theorem ofList_entries (d : Dictionary α) : ofList d.entries = d :=
  ext_get? fun k => get?_ofList d.nodup_keys k

/-! ## Other values under the same keys -/

/-- The dictionary with a function of each value in its place. -/
def map (f : α → β) (d : Dictionary α) : Dictionary β :=
  ⟨d.entries.map fun e => (e.1, f e.2), by
    rw [Ascending, List.pairwise_map]
    exact d.ascending⟩

theorem get?_map (f : α → β) (d : Dictionary α) (k : String) :
    (d.map f).get? k = (d.get? k).map f := by
  show lookup k (d.entries.map fun e => (e.1, f e.2)) = (lookup k d.entries).map f
  induction d.entries with
  | nil => rfl
  | cons entry rest ih =>
    rw [List.map_cons, lookup, lookup, ih]
    by_cases hk : entry.1 = k
    · rw [if_pos hk, if_pos hk]
      rfl
    · rw [if_neg hk, if_neg hk]

theorem map_insert (f : α → β) (d : Dictionary α) (key : String) (value : α) :
    (d.insert key value).map f = (d.map f).insert key (f value) := by
  apply ext_get?
  intro k
  rw [get?_map, get?_insert, get?_insert, get?_map]
  by_cases hk : key = k
  · rw [if_pos hk, if_pos hk]
    rfl
  · rw [if_neg hk, if_neg hk]

/-- It does not matter whether the values are exchanged before or after the binding. -/
theorem ofList_map (f : α → β) (entries : List (String × α)) :
    ofList (entries.map fun e => (e.1, f e.2)) = (ofList entries).map f := by
  have hfold : ∀ d : Dictionary α,
      (entries.map fun e => (e.1, f e.2)).foldl (fun d e => d.insert e.1 e.2) (d.map f) =
        (entries.foldl (fun d e => d.insert e.1 e.2) d).map f := by
    induction entries with
    | nil =>
      intro d
      rfl
    | cons entry rest ih =>
      intro d
      rw [List.map_cons, List.foldl_cons, List.foldl_cons, ← map_insert, ih]
  exact hfold empty

end Dictionary

end Tabular
