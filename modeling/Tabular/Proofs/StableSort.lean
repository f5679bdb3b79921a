import Mathlib.Data.List.Basic

/-!
# Stable sorting by a key

`SortedStably cmp key xs ys` says what sorting `xs` by a key should give, without
saying how: the same items, ascending by their keys, and those with equal keys as
they were. There is one such list (`SortedStably.unique`), and a merge sort that
compares by the key finds it (`sortedStably_mergeSort`). As only keys matter, items
can be sorted before or after they are turned into others with the same keys
(`SortedStably.map`).

Items can be equal. Where it matters which of them stands where, each is given the place
that it had: `PlacedStably` says the same of items with their places
(`sortedStably_iff_exists_placed`).
-/

namespace Tabular

variable {α β κ : Type}

/-- The items that have a key, as they stand in a list. -/
def withKey (cmp : κ → κ → Ordering) (key : α → κ) (k : κ) (xs : List α) : List α :=
  xs.filter fun a => cmp (key a) k == .eq

/-- `ys` is `xs` in stable ascending order of a key. -/
structure SortedStably (cmp : κ → κ → Ordering) (key : α → κ) (xs ys : List α) : Prop where
  /-- No item is lost or comes twice. -/
  perm : ys.Perm xs
  ascending : ys.Pairwise fun a b => (cmp (key a) (key b)).isLE = true
  /-- Items with equal keys keep their order. -/
  stable : ∀ k, withKey cmp key k ys = withKey cmp key k xs

/-- Items can be sorted before they are turned into others with the same keys. -/
theorem SortedStably.map {cmp : κ → κ → Ordering} {key : β → κ} {f : α → β} {xs ys : List α}
    (h : SortedStably cmp (fun a => key (f a)) xs ys) :
    SortedStably cmp key (xs.map f) (ys.map f) where
  perm := h.perm.map f
  ascending := List.pairwise_map.mpr h.ascending
  stable := by
    intro k
    have hclass := h.stable k
    unfold withKey at hclass ⊢
    rw [List.filter_map, List.filter_map]
    exact congrArg (List.map f) hclass

section Ordered

variable {cmp : κ → κ → Ordering} [Std.TransCmp cmp] {key : α → κ}

theorem withKey_cons_self (x : α) (xs : List α) :
    withKey cmp key (key x) (x :: xs) = x :: withKey cmp key (key x) xs := by
  have hself : cmp (key x) (key x) = .eq := Std.ReflCmp.compare_self
  simp [withKey, hself]

/-- A sorted list that has the item `y` begins with no later key. -/
theorem isLE_head {x y : α} {xs ys : List α}
    (hsorted : (x :: xs).Pairwise fun a b => (cmp (key a) (key b)).isLE = true)
    (hclass : withKey cmp key (key y) (x :: xs) = withKey cmp key (key y) (y :: ys)) :
    (cmp (key x) (key y)).isLE = true := by
  have hy : y ∈ withKey cmp key (key y) (x :: xs) := by
    rw [hclass, withKey_cons_self]
    exact List.mem_cons_self
  rcases List.mem_cons.mp (List.mem_filter.mp hy).1 with rfl | hmem
  · have hself : cmp (key y) (key y) = .eq := Std.ReflCmp.compare_self
    rw [hself]
    rfl
  · exact (List.pairwise_cons.mp hsorted).1 y hmem

/-- A sorted list is determined by what it has under each key. -/
theorem eq_of_withKey_eq {ys zs : List α}
    (hys : ys.Pairwise fun a b => (cmp (key a) (key b)).isLE = true)
    (hzs : zs.Pairwise fun a b => (cmp (key a) (key b)).isLE = true)
    (h : ∀ k, withKey cmp key k ys = withKey cmp key k zs) : ys = zs := by
  induction ys generalizing zs with
  | nil =>
    cases zs with
    | nil => rfl
    | cons z zs =>
      -- Under the key of `z` one list has an item and the other none.
      have hz := h (key z)
      rw [withKey_cons_self] at hz
      cases hz
  | cons y ys ih =>
    cases zs with
    | nil =>
      have hy := h (key y)
      rw [withKey_cons_self] at hy
      cases hy
    | cons z zs =>
      -- Neither first key is above the other, so both items are the first with it.
      have hyz := isLE_head hys (h (key z))
      have hzy := isLE_head hzs (h (key y)).symm
      have hkey : cmp (key z) (key y) = .eq := by
        have hswap : cmp (key y) (key z) = (cmp (key z) (key y)).swap := Std.OrientedCmp.eq_swap
        rw [hswap] at hyz
        cases hc : cmp (key z) (key y) <;> simp_all
      have hfirst := h (key y)
      rw [withKey_cons_self] at hfirst
      simp only [withKey, List.filter_cons, hkey] at hfirst
      obtain rfl : y = z := (List.cons.inj hfirst).1
      have hrest : ∀ k, withKey cmp key k ys = withKey cmp key k zs := by
        intro k
        have hk := h k
        simp only [withKey, List.filter_cons] at hk ⊢
        split at hk
        · exact (List.cons.inj hk).2
        · exact hk
      rw [ih (List.pairwise_cons.mp hys).2 (List.pairwise_cons.mp hzs).2 hrest]

/-- There is one stable order of a list. -/
theorem SortedStably.unique {xs ys zs : List α} (hys : SortedStably cmp key xs ys)
    (hzs : SortedStably cmp key xs zs) : ys = zs :=
  eq_of_withKey_eq hys.ascending hzs.ascending fun k => (hys.stable k).trans (hzs.stable k).symm

/-- Merge sort by the key finds the stable order. -/
theorem sortedStably_mergeSort (xs : List α) :
    SortedStably cmp key xs (xs.mergeSort fun a b => (cmp (key a) (key b)).isLE) := by
  have htrans : ∀ a b c : α, (cmp (key a) (key b)).isLE = true →
      (cmp (key b) (key c)).isLE = true → (cmp (key a) (key c)).isLE = true :=
    fun _ _ _ hab hbc => Std.TransCmp.isLE_trans hab hbc
  have htotal : ∀ a b : α,
      ((cmp (key a) (key b)).isLE || (cmp (key b) (key a)).isLE) = true := by
    intro a b
    have hswap : cmp (key b) (key a) = (cmp (key a) (key b)).swap := Std.OrientedCmp.eq_swap
    rw [hswap]
    cases cmp (key a) (key b) <;> rfl
  have hperm := List.mergeSort_perm xs fun a b => (cmp (key a) (key b)).isLE
  refine ⟨hperm, List.pairwise_mergeSort htrans htotal xs, ?_⟩
  intro k
  -- The items under `k` are in order already, so they stand in the sorted list as
  -- they stood before, and there are no others.
  have hclass : (withKey cmp key k xs).Pairwise fun a b =>
      (cmp (key a) (key b)).isLE = true := by
    refine List.pairwise_of_forall_mem_list ?_
    intro a ha b hb
    have hak : cmp (key a) k = .eq := by simpa [withKey] using (List.mem_filter.mp ha).2
    have hbk : cmp (key b) k = .eq := by simpa [withKey] using (List.mem_filter.mp hb).2
    have hkb : cmp k (key b) = .eq := Std.OrientedCmp.eq_symm hbk
    rw [Std.TransCmp.eq_trans hak hkb]
    rfl
  have hsub := (List.sublist_mergeSort htrans htotal hclass List.filter_sublist).filter
    fun a => cmp (key a) k == .eq
  simp only [withKey, List.filter_filter, Bool.and_self] at hsub ⊢
  exact (hsub.eq_of_length (hperm.filter _).length_eq.symm).symm

end Ordered

/-! ## Items told by their places -/

/-- The items of `xs`, each with its place there, in stable ascending order of a key. -/
structure PlacedStably (cmp : κ → κ → Ordering) (key : α → κ) (xs : List α)
    (placed : List (α × Nat)) : Prop where
  /-- Every place comes once, with its item. -/
  perm : placed.Perm xs.zipIdx
  /-- No key is greater than the next one. -/
  ascending : placed.IsChain fun a b => (cmp (key a.1) (key b.1)).isLE = true
  /-- Of two items with equal keys the one that was first is first. -/
  stable : placed.Pairwise fun a b => cmp (key a.1) (key b.1) = .eq → a.2 < b.2

theorem pairwise_zipIdx (xs : List α) : xs.zipIdx.Pairwise fun a b => a.2 < b.2 := by
  have hplaces : (xs.zipIdx.map Prod.snd).Pairwise (· < ·) := by
    rw [List.zipIdx_map_snd]
    exact List.pairwise_lt_range'
  exact List.pairwise_map.mp hplaces

section Ordered

variable {cmp : κ → κ → Ordering} [Std.TransCmp cmp] {key : α → κ}

/-- Items with equal keys stand in the order of their places iff the items under each
key do. -/
theorem pairwise_withKey_iff {placed : List (α × Nat)} :
    (∀ k, (withKey cmp (fun a : α × Nat => key a.1) k placed).Pairwise fun a b => a.2 < b.2) ↔
      placed.Pairwise fun a b => cmp (key a.1) (key b.1) = .eq → a.2 < b.2 := by
  simp only [withKey, List.pairwise_filter, beq_iff_eq]
  constructor
  · intro h
    rw [List.pairwise_iff_forall_sublist]
    intro a b hab heq
    exact List.pairwise_iff_forall_sublist.mp (h (key b.1)) hab heq Std.ReflCmp.compare_self
  · intro h k
    refine h.imp ?_
    intro a b hlt hak hbk
    exact hlt (Std.TransCmp.eq_trans hak (Std.OrientedCmp.eq_symm hbk))

/-- To sort items with their places is to sort them as items that are all different. -/
theorem placedStably_iff {xs : List α} {placed : List (α × Nat)} :
    PlacedStably cmp key xs placed ↔
      SortedStably cmp (fun a : α × Nat => key a.1) xs.zipIdx placed := by
  constructor
  · intro h
    have : Trans (fun a b : α × Nat => (cmp (key a.1) (key b.1)).isLE = true)
        (fun a b : α × Nat => (cmp (key a.1) (key b.1)).isLE = true)
        fun a b : α × Nat => (cmp (key a.1) (key b.1)).isLE = true :=
      ⟨fun hab hbc => Std.TransCmp.isLE_trans hab hbc⟩
    refine ⟨h.perm, h.ascending.pairwise, ?_⟩
    intro k
    -- Both lists have the same items under `k`, and both in the order of their places.
    refine List.Perm.eq_of_pairwise ?_ (pairwise_withKey_iff.mpr h.stable k)
      ((pairwise_zipIdx xs).filter _) (h.perm.filter _)
    intro a b _ _ hab hba
    omega
  · intro h
    refine ⟨h.perm, h.ascending.isChain, pairwise_withKey_iff.mp ?_⟩
    intro k
    rw [h.stable k]
    exact (pairwise_zipIdx xs).filter _

/-- A list is in stable order iff its items can be given their places. -/
theorem sortedStably_iff_exists_placed {xs ys : List α} :
    SortedStably cmp key xs ys ↔
      ∃ placed, PlacedStably cmp key xs placed ∧ placed.map Prod.fst = ys := by
  have hitems : ∀ placed, PlacedStably cmp key xs placed →
      SortedStably cmp key xs (placed.map Prod.fst) := by
    intro placed hplaced
    have hmap := (placedStably_iff.mp hplaced).map
    rwa [List.zipIdx_map_fst] at hmap
  constructor
  · intro h
    have hplaced : PlacedStably cmp key xs (xs.zipIdx.mergeSort fun a b =>
        (cmp (key a.1) (key b.1)).isLE) := placedStably_iff.mpr (sortedStably_mergeSort _)
    exact ⟨_, hplaced, (hitems _ hplaced).unique h⟩
  · intro h
    obtain ⟨placed, hplaced, rfl⟩ := h
    exact hitems placed hplaced

end Ordered

end Tabular
