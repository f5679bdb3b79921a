import Mathlib.Data.List.Forall2
import Tabular.Proofs.Fallible
import Tabular.Proofs.WrittenJson

/-!
# Lists and objects, item by item

A reader of lists goes through a loop that keeps what it has read. What it reads off a text
can be said without the loop: the items stand one behind the other with commas between them
and the bracket behind the last (`Listing`), and each is what the reader of items takes
there (`takes_items_iff`). Members stand the same way, and the object they make binds them in
turn (`takes_members_iff`). A value is read as one of its kind (`valueWith_cases`); so what is
said of the items of a list or of the members of an object is said of the value.
-/

namespace Tabular.Json.Reader

variable {α β : Type}

/-! ## Lists of items -/

/-- Items with commas between them and a closing character behind the last, off the front of
a text. -/
inductive Listing (Item : List Char → α → List Char → Prop) (close : Char) :
    List Char → List α → List Char → Prop
  | last {s t rest : List Char} {v : α} (hv : Item s v t) (ht : skip t = close :: rest) :
      Listing Item close s [v] rest
  | more {s t r rest : List Char} {v : α} {vs : List α} (hv : Item s v t)
      (ht : skip t = ',' :: r) (hvs : Listing Item close r vs rest) :
      Listing Item close s (v :: vs) rest

/-- Items up to a closing character; there may be none. -/
def Enclosed (Item : List Char → α → List Char → Prop) (close : Char) (s : List Char)
    (vs : List α) (rest : List Char) : Prop :=
  vs = [] ∧ skip s = close :: rest ∨ Listing Item close s vs rest

section Views

variable {R : β → α → Prop} {Item : List Char → α → List Char → Prop}
  {Item' : List Char → β → List Char → Prop} {close : Char} {s rest : List Char} {vs : List α}

/-- Items that are others seen in another way are listed where those are. -/
theorem listing_iff_forall₂ (hitem : ∀ s v rest, Item s v rest ↔ ∃ w, Item' s w rest ∧ R w v) :
    Listing Item close s vs rest ↔
      ∃ ws, Listing Item' close s ws rest ∧ List.Forall₂ R ws vs := by
  constructor
  · intro h
    induction h with
    | last hv ht =>
      obtain ⟨w, hw, hR⟩ := (hitem _ _ _).mp hv
      exact ⟨[w], .last hw ht, .cons hR .nil⟩
    | more hv ht _ ih =>
      obtain ⟨w, hw, hR⟩ := (hitem _ _ _).mp hv
      obtain ⟨ws, hws, hRs⟩ := ih
      exact ⟨w :: ws, .more hw ht hws, .cons hR hRs⟩
  · rintro ⟨ws, h, hRs⟩
    induction h generalizing vs with
    | last hw ht =>
      cases hRs with
      | cons hR hRs =>
        cases hRs
        exact .last ((hitem _ _ _).mpr ⟨_, hw, hR⟩) ht
    | more hw ht _ ih =>
      cases hRs with
      | cons hR hRs => exact .more ((hitem _ _ _).mpr ⟨_, hw, hR⟩) ht (ih hRs)

theorem enclosed_iff_forall₂ (hitem : ∀ s v rest, Item s v rest ↔ ∃ w, Item' s w rest ∧ R w v) :
    Enclosed Item close s vs rest ↔
      ∃ ws, Enclosed Item' close s ws rest ∧ List.Forall₂ R ws vs := by
  unfold Enclosed
  rw [listing_iff_forall₂ hitem]
  constructor
  · rintro (⟨rfl, hs⟩ | ⟨ws, hws, hRs⟩)
    · exact ⟨[], .inl ⟨rfl, hs⟩, .nil⟩
    · exact ⟨ws, .inr hws, hRs⟩
  · rintro ⟨ws, ⟨rfl, hs⟩ | hws, hRs⟩
    · cases hRs
      exact .inl ⟨rfl, hs⟩
    · exact .inr ⟨ws, hws, hRs⟩

theorem Enclosed.exists_item (h : Enclosed Item close s vs rest) {v : α} (hv : v ∈ vs) :
    ∃ s rest, Item s v rest := by
  rcases h with ⟨rfl, -⟩ | h
  · cases hv
  · induction h with
    | last hw _ =>
      cases List.mem_singleton.mp hv
      exact ⟨_, _, hw⟩
    | more hw _ _ ih =>
      rcases List.mem_cons.mp hv with rfl | hv
      · exact ⟨_, _, hw⟩
      · exact ih hv

end Views

/-- What a reader reads starts with another character. -/
def Avoids (reader : Reader α) (close : Char) : Prop :=
  ∀ s v rest, Takes reader s v rest → ∃ c r, skip s = c :: r ∧ c ≠ close

variable {reader : Reader α} {whole s rest : List Char}

theorem Listing.start {close : Char} (hreader : Avoids reader close) {vs : List α}
    (h : Listing (Takes reader) close s vs rest) : ∃ c r, skip s = c :: r ∧ c ≠ close := by
  cases h with
  | last hv _ => exact hreader _ _ _ hv
  | more hv _ _ => exact hreader _ _ _ hv

theorem Listing.not_closed {close : Char} (hreader : Avoids reader close) {vs : List α}
    (h : Listing (Takes reader) close s vs rest) (r : List Char) : skip s ≠ close :: r := by
  obtain ⟨c, t, hs, hc⟩ := h.start hreader
  rw [hs]
  rintro ⟨⟩
  exact hc rfl

/-! ### Items -/

/-- What the loop reads is listed, behind what was read before. -/
theorem listing_of_itemsFrom {read : List α} {h : s.length ≤ whole.length}
    {taken : Taken (List α) whole} (hok : itemsFrom reader whole read s h = .ok taken) :
    ∃ vs, Listing (Takes reader) ']' s vs taken.rest ∧ taken.value = read.reverse ++ vs := by
  fun_induction itemsFrom reader whole read s h with
  | case1 => cases hok
  | case2 read s h v t ht hv r hr =>
    cases hok
    exact ⟨[v], .last ⟨ht, hv⟩ hr, by rw [List.reverse_cons]⟩
  | case3 => cases hok
  | case4 read s h v t ht hv r hr _ _ ih =>
    obtain ⟨vs, hvs, hvalue⟩ := ih hok
    refine ⟨v :: vs, .more ⟨ht, hv⟩ hr hvs, ?_⟩
    rw [hvalue, List.reverse_cons, List.append_assoc, List.singleton_append]
  | case5 => cases hok
  | case6 => cases hok

theorem itemsFrom_of_listing (hreader : Avoids reader ']') {vs : List α}
    (hvs : Listing (Takes reader) ']' s vs rest) (read : List α) (h : s.length ≤ whole.length) :
    ∃ hlt, itemsFrom reader whole read s h = .ok ⟨read.reverse ++ vs, rest, hlt⟩ := by
  induction hvs generalizing read with
  | last hv ht =>
    have hend := itemsFrom_end read (h := h) hv ht
    rwa [List.reverse_cons] at hend
  | more hv ht hvs ih =>
    obtain ⟨h', hmore⟩ := itemsFrom_more read (h := h) hv ht (hvs.not_closed hreader)
    obtain ⟨hlt, hrest⟩ := ih (_ :: read) h'
    refine ⟨hlt, ?_⟩
    rw [hmore, hrest]
    simp only [List.reverse_cons, List.append_assoc, List.singleton_append]

theorem enclosed_of_items {vs : List α} (h : Takes (items reader) s vs rest) :
    Enclosed (Takes reader) ']' s vs rest := by
  obtain ⟨hlt, h⟩ := h
  unfold items at h
  split at h
  next r hs =>
    cases h
    exact .inl ⟨rfl, hs⟩
  · cases h
  · obtain ⟨ws, hws, hvalue⟩ := listing_of_itemsFrom h
    cases hvalue
    exact .inr hws

/-- **Lists are read item by item.** -/
theorem takes_items_iff (hreader : Avoids reader ']') {vs : List α} :
    Takes (items reader) s vs rest ↔ Enclosed (Takes reader) ']' s vs rest := by
  constructor
  · exact enclosed_of_items
  · rintro (⟨rfl, hs⟩ | hvs)
    · exact takes_items_nil hs
    · obtain ⟨c, r, hs, hc⟩ := hvs.start hreader
      rw [Takes, items_eq hs hc]
      exact itemsFrom_of_listing hreader hvs [] (Nat.le_refl _)

/-! ### Members -/

theorem takes_member_iff {key : String} {v : α} :
    Takes (member reader) s (key, v) rest ↔
      ∃ r t u, skip s = '"' :: r ∧ Takes characters r key t ∧ skip t = ':' :: u ∧
        Takes reader u v rest := by
  constructor
  · rintro ⟨hlt, h⟩
    unfold member at h
    split at h
    next r hs =>
      split at h
      · cases h
      next t hkey hread =>
        split at h
        next u hu =>
          obtain ⟨taken, htaken, heq⟩ := map_eq_ok_iff.mp h
          cases heq
          exact ⟨r, _, u, hs, ⟨hkey, hread⟩, hu, taken.shorter, htaken⟩
        · cases h
        · cases h
    · cases h
    · cases h
  · rintro ⟨r, t, u, hs, hkey, ht, hv⟩
    exact takes_member hs hkey ht hv

theorem member_avoids (reader : Reader α) : Avoids (member reader) '}' := by
  rintro s ⟨key, v⟩ rest h
  obtain ⟨r, -, -, hs, -⟩ := takes_member_iff.mp h
  exact ⟨'"', r, hs, by decide⟩

/-- What the loop reads is listed, and bound in turn behind what was read before. -/
theorem listing_of_membersFrom {d : Dictionary α} {h : s.length ≤ whole.length}
    {taken : Taken (List (String × α)) whole}
    (hok : membersFrom reader whole d.entries s h = .ok taken) :
    ∃ ms, Listing (Takes (member reader)) '}' s ms taken.rest ∧
      taken.value = (ms.foldl (fun d m => d.insert m.1 m.2) d).entries := by
  generalize hread : d.entries = read at hok
  fun_induction membersFrom reader whole read s h generalizing d with
  | case1 => cases hok
  | case2 read s h key v t ht hm r hr =>
    cases hok
    cases hread
    exact ⟨[(key, v)], .last ⟨ht, hm⟩ hr, rfl⟩
  | case3 => cases hok
  | case4 read s h key v t ht hm r hr _ _ ih =>
    cases hread
    obtain ⟨ms, hms, hvalue⟩ := ih (d := d.insert key v) rfl hok
    exact ⟨(key, v) :: ms, .more ⟨ht, hm⟩ hr hms, hvalue⟩
  | case5 => cases hok
  | case6 => cases hok

theorem membersFrom_of_listing {ms : List (String × α)}
    (hms : Listing (Takes (member reader)) '}' s ms rest) (d : Dictionary α)
    (h : s.length ≤ whole.length) :
    ∃ hlt, membersFrom reader whole d.entries s h =
      .ok ⟨(ms.foldl (fun d m => d.insert m.1 m.2) d).entries, rest, hlt⟩ := by
  induction hms generalizing d with
  | last hm ht => exact membersFrom_end d.entries hm ht
  | more hm ht hms ih =>
    obtain ⟨h', hmore⟩ :=
      membersFrom_more d.entries (h := h) hm ht (hms.not_closed (member_avoids reader))
    rw [hmore]
    exact ih (d.insert _ _) h'

/-- **Objects are read member by member**, and bind them in turn. -/
theorem takes_members_iff {es : List (String × α)} :
    Takes (members reader) s es rest ↔
      ∃ ms, Enclosed (Takes (member reader)) '}' s ms rest ∧
        (Dictionary.ofList ms).entries = es := by
  constructor
  · rintro ⟨hlt, h⟩
    unfold members at h
    split at h
    next r hs =>
      cases h
      exact ⟨[], .inl ⟨rfl, hs⟩, rfl⟩
    · cases h
    · obtain ⟨ms, hms, hvalue⟩ := listing_of_membersFrom (d := .empty) h
      exact ⟨ms, .inr hms, hvalue.symm⟩
  · rintro ⟨ms, ⟨rfl, hs⟩ | hms, rfl⟩
    · exact takes_members_nil hs
    · obtain ⟨c, r, hs, hc⟩ := hms.start (member_avoids reader)
      rw [Takes, members_eq hs hc]
      exact membersFrom_of_listing hms .empty (Nat.le_refl _)

/-! ## Values -/

variable {inner : Option (Reader Json)}

/-- What a value is read from, by its kind. None starts like the end of a list. -/
theorem valueWith_cases {v : Json} (h : Takes (valueWith inner) s v rest) :
    ∃ c r, skip s = c :: r ∧ c ≠ ']' ∧
      match v with
      | .null | .bool _ => True
      | .string t => c = '"' ∧ Takes characters r t rest
      | .number n => Takes number (c :: r) n rest
      | .array vs => c = '[' ∧ ∃ item, inner = some item ∧ Takes (items item) r vs rest
      | .object ms => c = '{' ∧ ∃ item, inner = some item ∧ Takes (members item) r ms rest := by
  obtain ⟨hlt, h⟩ := h
  unfold valueWith at h
  split at h
  · cases h
  next c r hs =>
    refine ⟨c, r, hs, ?_⟩
    -- One case for each first character: three words, texts, numbers, lists and objects.
    split at h
    next hc =>
      obtain ⟨t, -, heq⟩ := map_eq_ok_iff.mp h
      cases heq
      exact ⟨by rw [hc]; decide, trivial⟩
    split at h
    next hc =>
      obtain ⟨t, -, heq⟩ := map_eq_ok_iff.mp h
      cases heq
      exact ⟨by rw [hc]; decide, trivial⟩
    split at h
    next hc =>
      obtain ⟨t, -, heq⟩ := map_eq_ok_iff.mp h
      cases heq
      exact ⟨by rw [hc]; decide, trivial⟩
    split at h
    next hc =>
      obtain ⟨t, ht, heq⟩ := map_eq_ok_iff.mp h
      cases heq
      exact ⟨by rw [hc]; decide, hc, t.shorter, ht⟩
    split at h
    next hc =>
      obtain ⟨t, ht, heq⟩ := map_eq_ok_iff.mp h
      cases heq
      exact ⟨(not_blank_of_number hc).2, t.shorter, ht⟩
    split at h
    next hc =>
      cases inner with
      | none => cases h
      | some item =>
        obtain ⟨t, ht, heq⟩ := map_eq_ok_iff.mp h
        cases heq
        exact ⟨by rw [hc]; decide, hc, item, rfl, t.shorter, ht⟩
    split at h
    next hc =>
      cases inner with
      | none => cases h
      | some item =>
        obtain ⟨t, ht, heq⟩ := map_eq_ok_iff.mp h
        cases heq
        exact ⟨by rw [hc]; decide, hc, item, rfl, t.shorter, ht⟩
    · cases h

theorem valueWith_avoids (inner : Option (Reader Json)) : Avoids (valueWith inner) ']' := by
  intro s v rest h
  obtain ⟨c, r, hs, hc, -⟩ := valueWith_cases h
  exact ⟨c, r, hs, hc⟩

theorem exists_valueWith (depth : Nat) : ∃ inner, value depth = valueWith inner := by
  cases depth with
  | zero => exact ⟨none, rfl⟩
  | succ depth => exact ⟨some (value depth), rfl⟩

theorem value_avoids (depth : Nat) : Avoids (value depth) ']' := by
  obtain ⟨inner, hinner⟩ := exists_valueWith depth
  rw [hinner]
  exact valueWith_avoids inner

theorem takes_array_iff {depth : Nat} {vs : List Json} :
    Takes (value (depth + 1)) s (.array vs) rest ↔
      ∃ r, skip s = '[' :: r ∧ Enclosed (Takes (value depth)) ']' r vs rest := by
  simp only [← takes_items_iff (value_avoids depth)]
  constructor
  · intro h
    obtain ⟨c, r, hs, -, rfl, item, hitem, hvs⟩ := valueWith_cases h
    cases hitem
    exact ⟨r, hs, hvs⟩
  · rintro ⟨r, hs, hlt, h⟩
    refine ⟨Nat.lt_trans hlt (length_lt_of_skip_eq hs), ?_⟩
    unfold value valueWith
    split
    next heq =>
      rw [hs] at heq
      cases heq
    next heq =>
      rw [hs] at heq
      cases heq
      simp [h, Except.map, Taken.map, Taken.widen]

theorem takes_object_iff {depth : Nat} {es : List (String × Json)} :
    Takes (value (depth + 1)) s (.object es) rest ↔
      ∃ r, skip s = '{' :: r ∧ Takes (members (value depth)) r es rest := by
  constructor
  · intro h
    obtain ⟨c, r, hs, -, rfl, item, hitem, hes⟩ := valueWith_cases h
    cases hitem
    exact ⟨r, hs, hes⟩
  · rintro ⟨r, hs, hlt, h⟩
    refine ⟨Nat.lt_trans hlt (length_lt_of_skip_eq hs), ?_⟩
    unfold value valueWith
    split
    next heq =>
      rw [hs] at heq
      cases heq
    next heq =>
      rw [hs] at heq
      cases heq
      simp [h, Except.map, Taken.map, Taken.widen]

end Tabular.Json.Reader
