import Tabular.Proofs.Answer
import Tabular.Proofs.Operations
import Tabular.Proofs.Reachable
import Tabular.Proofs.RowOrder

/-!
# Answers in the order of code points

Texts are compared by their bytes, and answers are promised in the order of code points: the
first code points that differ decide, and a proper beginning comes first. The two orders are
one (`Text.compare_codePoints`). So rows that are sorted by a column hold texts in this order
there, and listings have the ids of datasets in it (`Text.order_by_codePoints`).
-/

namespace Tabular

namespace Text

section Lexicographic

variable {α : Type} [LT α] [LE α] [Ord α] [Std.LawfulOrderOrd α] [Std.LawfulOrderLT α]
  [Std.LawfulEqOrd α]

/-- Lists are compared in lexicographic order. -/
theorem compare_list_eq_lt_iff {xs ys : List α} : compare xs ys = .lt ↔ xs < ys := by
  induction xs generalizing ys with
  | nil =>
    cases ys with
    | nil => simp
    | cons y ys => simp
  | cons x xs ih =>
    cases ys with
    | nil => simp
    | cons y ys =>
      rw [List.compare_cons_cons, Ordering.then_eq_lt, Std.compare_eq_lt,
        Std.LawfulEqOrd.compare_eq_iff_eq, ih, List.cons_lt_cons_iff]

end Lexicographic

theorem bytes_lt_iff {a b : String} : bytes a < bytes b ↔ Before a b :=
  compare_list_eq_lt_iff.symm

/-- One text comes before another iff its code points do. -/
theorem before_iff_codePoints_lt {a b : String} :
    Before a b ↔ codePoints a < codePoints b := by
  rw [Before, ← compare_codePoints, compare_list_eq_lt_iff]

theorem order_eq_gt_iff {a b : String} : order a b = .gt ↔ Before b a :=
  Std.OrientedCmp.gt_iff_lt

theorem order_eq_eq_iff {a b : String} : order a b = .eq ↔ codePoints a = codePoints b := by
  rw [← compare_codePoints, Std.LawfulEqOrd.compare_eq_iff_eq]

/-- A proper beginning of a text comes before it. -/
theorem before_append {a b : String} (h : b ≠ "") : Before a (a ++ b) := by
  obtain ⟨c, cs, hb⟩ := List.exists_cons_of_ne_nil (mt String.toList_eq_nil_iff.mp h)
  have hlt : codePoints a ++ [] < codePoints a ++ c.toNat :: cs.map Char.toNat :=
    List.append_left_lt (List.nil_lt_cons _ _)
  rw [List.append_nil] at hlt
  rw [before_iff_codePoints_lt]
  simpa [codePoints, hb] using hlt

/-- The first characters that differ decide. -/
theorem before_of_toNat_lt {front s t : List Char} {c d : Char} (h : c.toNat < d.toNat) :
    Before (String.ofList (front ++ c :: s)) (String.ofList (front ++ d :: t)) := by
  rw [before_iff_codePoints_lt, codePoints, codePoints, String.toList_ofList,
    String.toList_ofList, List.map_append, List.map_append]
  exact List.append_left_lt (List.cons_lt_cons_iff.mpr (.inl h))

end Text

/-! ## Rows and listings -/

/-- No row holds a text in a column that comes before the text of an earlier row there, by
code points. -/
def Row.TextsAscend (column : String) (rows : List Row) : Prop :=
  rows.Pairwise fun r s => ∀ a b, lookup column r = some (.text a) →
    lookup column s = some (.text b) → ¬ Text.codePoints b < Text.codePoints a

/-- Ids that stand in the order of their code points, each once. -/
def IdsAscend (ids : List String) : Prop :=
  ids.Pairwise fun i j => Text.codePoints i < Text.codePoints j

theorem Row.textsAscend_sortBy (column : String) (rows : List Row) :
    TextsAscend column (sortBy column rows) := by
  refine (sortedStably_sortBy column rows).ascending.imp ?_
  intro r s hle a b ha hb
  rw [ha, hb] at hle
  have hle' : (Text.order a b).isLE = true := hle
  rw [← Text.compare_codePoints, Text.isLE_compare_codePoints_iff] at hle'
  rwa [← Text.before_iff_codePoints_lt]

theorem Query.textsAscend_of_run [Searcher] {q : Query} {d : Dataset} {rows : List Row}
    {column : String} (h : q.run d = .ok rows) (horder : q.options.order = some column) :
    Row.TextsAscend column rows := by
  obtain ⟨found, columns, -, -, -, -, rfl⟩ := run_eq_ok_iff.mp h
  rw [horder]
  exact Row.textsAscend_sortBy column _

namespace Catalog

theorem idsAscend_ids (c : Catalog) : IdsAscend c.ids :=
  c.ids_ascending.imp Text.before_iff_codePoints_lt.mp

theorem idsAscend_of_add {c : Catalog} {id : String} {kind : Kind} {records : List Record}
    {ids : List String} (h : (c.add id kind records).1 = .ok ids) : IdsAscend ids := by
  rw [ids_of_add h]
  exact idsAscend_ids _

theorem Reachable.idsAscend_list {c : Catalog} (h : c.Reachable) :
    IdsAscend (c.list.map Dataset.Info.id) := by
  rw [map_id_list h.keyed.own]
  exact c.idsAscend_ids

end Catalog

/-- **Bytes are in the order of code points.** Comparing the bytes of two texts has the outcome
of comparing their code points, where the first that differ decide and a proper beginning comes
first. So rows sorted by a column hold texts in the order of code points there, and the ids
that adding a dataset answers with and those of the listing stand in it. -/
theorem Text.order_by_codePoints :
    (∀ a b : String, order a b = compare (codePoints a) (codePoints b)) ∧
    (∀ a b : String, Value.compare (some (.text a)) (some (.text b)) =
      compare (codePoints a) (codePoints b)) ∧
    (∀ a b : String, (bytes a < bytes b ↔ codePoints a < codePoints b) ∧
      (order a b = .lt ↔ codePoints a < codePoints b) ∧
      (order a b = .eq ↔ codePoints a = codePoints b) ∧
      (order a b = .gt ↔ codePoints b < codePoints a)) ∧
    (∀ a b : String, b ≠ "" → order a (a ++ b) = .lt) ∧
    (∀ (front s t : List Char) (c d : Char), c.toNat < d.toNat →
      order (String.ofList (front ++ c :: s)) (String.ofList (front ++ d :: t)) = .lt) ∧
    (∀ [Searcher] (q : Query) (d : Dataset) (rows : List Row) (column : String),
      q.run d = .ok rows → q.options.order = some column → Row.TextsAscend column rows) ∧
    (∀ (c : Catalog) (id : String) (kind : Kind) (records : List Record) (ids : List String),
      (c.add id kind records).1 = .ok ids → IdsAscend ids) ∧
    ∀ c : Catalog, c.Reachable → IdsAscend (c.list.map Dataset.Info.id) := by
  have horder : ∀ a b : String, order a b = compare (codePoints a) (codePoints b) := by
    intro a b
    exact (compare_codePoints a b).symm
  refine ⟨horder, horder, ?_, ?_, ?_, ?_, ?_, ?_⟩
  · intro a b
    refine ⟨bytes_lt_iff.trans before_iff_codePoints_lt, before_iff_codePoints_lt,
      order_eq_eq_iff, ?_⟩
    exact order_eq_gt_iff.trans before_iff_codePoints_lt
  · intro a b h
    exact before_append h
  · intro front s t c d h
    exact before_of_toNat_lt h
  · intro _ q d rows column h horder
    exact Query.textsAscend_of_run h horder
  · intro c id kind records ids h
    exact Catalog.idsAscend_of_add h
  · intro c h
    exact h.idsAscend_list

/-- Rooms whose names have characters of one to four bytes. -/
def foreignRooms : Dataset :=
  ⟨"rooms", .rooms, [.ofList [("name", .text "😀")], .ofList [("name", .text "é€")],
    .ofList [("name", .text "z")], .ofList [("name", .text "\uffff")],
    .ofList [("name", .text "é")]]⟩

/-- By code points a name stands behind its proper beginning, and the last character of three
bytes in front of one of four; so the rooms are shown, and so are ids listed. -/
theorem foreignRooms_ordered :
    let q : Query := ⟨.everything, ⟨["rooms_name"], some "rooms_name", []⟩⟩
    let c : Catalog := ((Catalog.empty.after (.add "😀" .rooms [])).after
      (.add "é" .rooms [])).after (.add "\uffff" .rooms [])
    Text.order "é" ("é" ++ "€") = .lt ∧
      Text.order (String.ofList ['\uffff']) (String.ofList ['😀']) = .lt ∧
      (∃ rows, q.run foreignRooms = .ok rows ∧ Row.TextsAscend "rooms_name" rows ∧
        rows = ["z", "é", "é€", "\uffff", "😀"].map fun name => [("rooms_name", .text name)]) ∧
      (c.add "z" .rooms []).1 = .ok ["z", "é", "\uffff", "😀"] ∧
      IdsAscend ["z", "é", "\uffff", "😀"] ∧
      c.Reachable ∧ IdsAscend (c.list.map Dataset.Info.id) := by
  intro q c
  obtain ⟨-, -, -, hbeginning, hdiffering, hrows, hadd, hlist⟩ := Text.order_by_codePoints
  have hc : c.Reachable := .after (.after (.after .empty _) _) _
  have hids : (c.add "z" .rooms []).1 = .ok ["z", "é", "\uffff", "😀"] := by decide +kernel
  let unsorted : List Row := ["😀", "é€", "z", "\uffff", "é"].map fun name =>
    [("rooms_name", .text name)]
  let sorted : List Row := ["z", "é", "é€", "\uffff", "😀"].map fun name =>
    [("rooms_name", .text name)]
  have hsorted : sorted = Row.sortBy "rooms_name" unsorted := by
    refine Row.sortBy_eq_of_sorted (sortedStably_iff_exists_placed.mpr
      ⟨sorted.zip [2, 4, 1, 3, 0], ⟨?_, ?_, ?_⟩, by decide +kernel⟩)
    · decide +kernel
    · decide +kernel
    · decide +kernel
  have hrun : q.run foreignRooms = .ok sorted :=
    Query.run_eq_ok_iff.mpr ⟨.below 5, [⟨"rooms_name", "name"⟩], by decide +kernel,
      by decide +kernel, by decide +kernel, by decide, hsorted⟩
  exact ⟨hbeginning "é" "€" (by decide), hdiffering [] [] [] _ _ (by decide),
    ⟨sorted, hrun, hrows q _ _ _ hrun rfl, rfl⟩, hids, hadd _ _ _ _ _ hids, hc, hlist c hc⟩

end Tabular
