import Mathlib.Data.List.Forall2
import Tabular.Session
import Tabular.Dataset.Reader
import Tabular.Proofs.EntryLists
import Tabular.Proofs.WrittenJson

/-!
# Rows that were written read back as records

Rows are written as a list of objects, compact or with an item a line, and records are
read from such a list. A text and a finite number come back as they were, so the rows
come back as records with their bindings (`readRecords_written`). What is no finite
number is written as null, which no field holds: then nothing is read.
-/

namespace Tabular

open Json.Reader

/-! ## What a row holds -/

/-- A value that JSON can say: a text, or a number that is finite. -/
def Value.Finite : Value → Prop
  | .number x => x.isFinite = true
  | .text _ => True

instance : DecidablePred Value.Finite
  | .number x => inferInstanceAs (Decidable (x.isFinite = true))
  | .text _ => inferInstanceAs (Decidable True)

theorem Value.ofJson?_toJson {v : Value} (h : v.Finite) : Value.ofJson? v.toJson = some v := by
  cases v with
  | number x =>
    have hx : x.isFinite = true := h
    rw [toJson, dif_pos hx]
    rfl
  | text s => rfl

theorem Value.toJson_of_not_finite {v : Value} (h : ¬ v.Finite) : v.toJson = .null := by
  cases v with
  | number x =>
    have hx : ¬ x.isFinite = true := h
    rw [toJson, dif_neg hx]
  | text s => exact absurd trivial h

namespace Json.Reader

/-- The text of a value reads back, null in place of a number that is not finite. -/
theorem reads_toJson (inner : Option (Json.Reader Json)) (l : Json.Layout) (depth : Nat)
    (v : Value) : Reads (valueWith inner) (Json.write l depth v.toJson) v.toJson := by
  cases v with
  | text s =>
    refine ⟨?_, '"', _, rfl, by decide, by decide⟩
    intro b rest hb hrest
    show Takes _ (b ++ (Json.quoted s ++ rest)) _ _
    rw [Json.quoted_append]
    exact valueWith_string (skip_token hb rfl _) (takes_characters s rest)
  | number x =>
    by_cases hx : x.isFinite = true
    · rw [Value.toJson, dif_pos hx, Json.write]
      refine ⟨?_, ?_⟩
      · intro b rest hb hrest
        obtain ⟨hread, c, t, hcons, hc⟩ := Json.Number.takes_text hx hrest
        rw [hcons] at hread ⊢
        exact valueWith_number (skip_token hb (not_blank_of_number hc).1 t) hc hread
      · obtain ⟨-, c, t, hcons, hc⟩ := Json.Number.takes_text hx closed_nil
        rw [List.append_nil] at hcons
        exact ⟨c, t, hcons, not_blank_of_number hc⟩
    · rw [Value.toJson, dif_neg hx, Json.write]
      refine ⟨?_, 'n', _, rfl, by decide, by decide⟩
      intro b rest hb hrest
      exact valueWith_null (skip_token hb rfl _)

/-! ## Rows as objects -/

theorem takes_record {s r rest : List Char} {ms : List (String × Json)} (hs : skip s = '{' :: r)
    (h : Takes (members (value (deepest - 2))) r ms rest) : Takes record s ms rest := by
  obtain ⟨hlt, h⟩ := h
  refine ⟨Nat.lt_trans hlt (length_lt_of_skip_eq hs), ?_⟩
  unfold record
  split
  next heq =>
    rw [hs] at heq
    cases heq
    rw [h]
    rfl
  next hne =>
    rw [hs] at hne
    exact (hne _ rfl).elim

theorem takes_records {s r rest : List Char} {objects : List (List (String × Json))}
    (hs : skip s = '[' :: r) (h : Takes (items record) r objects rest) :
    Takes records s objects rest := by
  obtain ⟨hlt, h⟩ := h
  refine ⟨Nat.lt_trans hlt (length_lt_of_skip_eq hs), ?_⟩
  unfold records
  split
  next heq =>
    rw [hs] at heq
    cases heq
    rw [h]
    rfl
  next hne =>
    rw [hs] at hne
    exact (hne _ rfl).elim

end Json.Reader

namespace Row

/-- The bindings of a row. -/
def record (row : Row) : Record := Dictionary.ofList row

/-- The members of the object that a row is written as, ascending. -/
def members (row : Row) : List (String × Json) := (row.record.map Value.toJson).entries

/-- The object of a row reads back as its members. -/
theorem reads_toJson {l : Json.Layout} (hl : l.Blank) (depth : Nat) (row : Row) :
    Reads Json.Reader.record (Json.write l depth row.toJson) row.members := by
  obtain ⟨t, ht, hread⟩ := takes_members_text hl depth (value (Json.deepest - 2))
    (row.map fun cell => (cell.1, cell.2.toJson)) (by
      intro m hm
      obtain ⟨cell, -, rfl⟩ := List.mem_map.mp hm
      exact Json.Reader.reads_toJson _ l _ cell.2)
  rw [Dictionary.ofList_map] at hread
  refine ⟨?_, '{', t, ht, by decide, by decide⟩
  intro b rest hb hrest
  rw [toJson, ht, List.cons_append]
  exact takes_record (skip_token hb rfl _) (hread rest)

/-- **Rows read back as lists of members**, in any layout of blanks and with blanks
behind them. -/
theorem readAll_written {l : Json.Layout} (hl : l.Blank) {rows : List Row} {e : List Char}
    (he : Blanks e) {text : String}
    (htext : text.toList = Json.write l 0 (listToJson rows) ++ e) :
    Json.readAll records text = .ok (rows.map members) := by
  obtain ⟨t, ht, hread⟩ := takes_items_text hl 0 rows (f := toJson) (g := members)
    (fun row _ => reads_toJson hl _ row)
  rw [listToJson, ht, List.cons_append] at htext
  have hskip : skip text.toList = '[' :: (t ++ e) := by
    rw [htext, skip_cons rfl]
  obtain ⟨hlt, h⟩ := takes_records hskip (hread e)
  rw [Json.readAll, h]
  show Json.finish text _ e = _
  rw [Json.finish, skip_blanks he]

/-! ## Objects as records -/

/-- Every number of a row is finite. -/
def Finite (row : Row) : Prop := ∀ cell ∈ row, cell.2.Finite

theorem fieldsOfMembers_of_finite {cells : Row} (h : cells.Finite) :
    fieldsOfMembers (cells.map fun cell => (cell.1, cell.2.toJson)) = .ok cells := by
  induction cells with
  | nil => rfl
  | cons cell cells ih =>
    obtain ⟨hcell, hcells⟩ := List.forall_mem_cons.mp h
    rw [List.map_cons, fieldsOfMembers, Value.ofJson?_toJson hcell]
    show fieldsOfMembers _ >>= _ = _
    rw [ih hcells]
    rfl

/-- The first number that is not finite is refused as the null that stands for it. -/
theorem fieldsOfMembers_of_not_finite {cells : Row} (h : ¬ cells.Finite) :
    ∃ cell ∈ cells, ¬ cell.2.Finite ∧
      fieldsOfMembers (cells.map fun cell => (cell.1, cell.2.toJson)) = .error (cell.1, .null) := by
  induction cells with
  | nil => exact absurd (fun cell hcell => by cases hcell) h
  | cons cell cells ih =>
    rw [List.map_cons, fieldsOfMembers]
    by_cases hcell : cell.2.Finite
    · have hcells : ¬ Finite cells := by
        intro hcells
        exact h (List.forall_mem_cons.mpr ⟨hcell, hcells⟩)
      obtain ⟨bad, hbad, hnot, herror⟩ := ih hcells
      refine ⟨bad, List.mem_cons_of_mem _ hbad, hnot, ?_⟩
      rw [Value.ofJson?_toJson hcell]
      show fieldsOfMembers _ >>= _ = _
      rw [herror]
      rfl
    · refine ⟨cell, List.mem_cons_self, hcell, ?_⟩
      rw [Value.toJson_of_not_finite hcell]
      rfl

/-- A row with distinct columns has its bindings. -/
theorem mem_record_iff {row : Row} (h : (row.map (·.1)).Nodup) {cell : String × Value} :
    cell ∈ row.record.entries ↔ cell ∈ row := by
  rw [record, Dictionary.mem_entries_iff, Dictionary.get?_ofList h, lookup_eq_some_iff h]

theorem finite_record_iff {row : Row} (h : (row.map (·.1)).Nodup) :
    Finite row.record.entries ↔ row.Finite := by
  unfold Finite
  simp only [mem_record_iff h]

theorem recordsOfObjects_of_finite {rows : List Row} (hrows : ∀ row ∈ rows, (row.map (·.1)).Nodup)
    (h : ∀ row ∈ rows, row.Finite) (start : Nat) :
    recordsOfObjects start (rows.map members) = .ok (rows.map record) := by
  induction rows generalizing start with
  | nil => rfl
  | cons row rows ih =>
    obtain ⟨hrow, hrest⟩ := List.forall_mem_cons.mp hrows
    obtain ⟨hfinite, h⟩ := List.forall_mem_cons.mp h
    rw [List.map_cons, recordsOfObjects, members, Dictionary.map,
      fieldsOfMembers_of_finite ((finite_record_iff hrow).mpr hfinite)]
    show recordsOfObjects _ _ >>= _ = _
    rw [ih hrest h, Dictionary.ofList_entries]
    rfl

/-- The first row with a number that is not finite decides the fault. -/
theorem recordsOfObjects_of_not_finite {rows : List Row}
    (hrows : ∀ row ∈ rows, (row.map (·.1)).Nodup) (h : ∃ row ∈ rows, ¬ row.Finite) (start : Nat) :
    ∃ i row cell, rows[i]? = some row ∧ cell ∈ row ∧ ¬ cell.2.Finite ∧
      recordsOfObjects start (rows.map members) = .error (.member (start + i) cell.1 "null") := by
  induction rows generalizing start with
  | nil =>
    obtain ⟨row, hrow, -⟩ := h
    cases hrow
  | cons row rows ih =>
    obtain ⟨hrow, hrest⟩ := List.forall_mem_cons.mp hrows
    rw [List.map_cons, recordsOfObjects, members, Dictionary.map]
    by_cases hfinite : row.Finite
    · have hbad : ∃ row ∈ rows, ¬ row.Finite := by
        obtain ⟨bad, hbad, hnot⟩ := h
        rcases List.mem_cons.mp hbad with rfl | hbad
        · exact absurd hfinite hnot
        · exact ⟨bad, hbad, hnot⟩
      obtain ⟨i, bad, cell, hi, hcell, hnot, herror⟩ := ih hrest hbad (start + 1)
      refine ⟨i + 1, bad, cell, hi, hcell, hnot, ?_⟩
      rw [fieldsOfMembers_of_finite ((finite_record_iff hrow).mpr hfinite)]
      show recordsOfObjects _ _ >>= _ = _
      rw [herror, Nat.add_right_comm]
      rfl
    · obtain ⟨cell, hcell, hnot, herror⟩ :=
        fieldsOfMembers_of_not_finite (mt (finite_record_iff hrow).mp hfinite)
      refine ⟨0, row, cell, rfl, (mem_record_iff hrow).mp hcell, hnot, ?_⟩
      rw [herror]
      rfl

end Row

/-! ## The texts of rows -/

/-- What is printed for rows is their JSON with an item a line, and the end of a line. -/
theorem toList_printedRows (rows : List Row) :
    (printedRows rows).toList = Json.write .pretty 0 (Row.listToJson rows) ++ ['\n'] := by
  simp [printedRows, unlines, String.join, Json.pretty]

/-- Whichever way rows are written, only blanks stand between the tokens and behind. -/
theorem exists_layout {rows : List Row} {text : String}
    (htext : text = (Row.listToJson rows).compact ∨ text = (Row.listToJson rows).pretty ∨
      text = printedRows rows) :
    ∃ l e, l.Blank ∧ Blanks e ∧ text.toList = Json.write l 0 (Row.listToJson rows) ++ e := by
  rcases htext with rfl | rfl | rfl
  · refine ⟨.compact, [], Json.Layout.compact_blank, .nil, ?_⟩
    rw [Json.compact, String.toList_ofList, List.append_nil]
  · refine ⟨.pretty, [], Json.Layout.pretty_blank, .nil, ?_⟩
    rw [Json.pretty, String.toList_ofList, List.append_nil]
  · refine ⟨.pretty, ['\n'], Json.Layout.pretty_blank, ?_, toList_printedRows rows⟩
    intro c hc
    rw [List.mem_singleton.mp hc]
    rfl

/-- **Rows that were written read back.** If their numbers are finite, there is one
record for each row, in their order, and it binds the columns of the row to what they
hold, bit by bit. If a number is not, the null in its place is refused. -/
theorem readRecords_written {rows : List Row} (hrows : ∀ row ∈ rows, (row.map (·.1)).Nodup)
    {text : String}
    (htext : text = (Row.listToJson rows).compact ∨ text = (Row.listToJson rows).pretty ∨
      text = printedRows rows) :
    ((∀ row ∈ rows, ∀ name x, (name, Value.number x) ∈ row → x.isFinite = true) →
        ∃ records, readRecords text = .ok records ∧
          List.Forall₂ (fun row record =>
            ∀ name value, record.get? name = some value ↔ (name, value) ∈ row) rows records) ∧
      ((∃ row ∈ rows, ∃ name x, (name, Value.number x) ∈ row ∧ x.isFinite = false) →
        ∃ i row name x, rows[i]? = some row ∧ (name, Value.number x) ∈ row ∧
          x.isFinite = false ∧ readRecords text = .error (.member i name "null")) := by
  obtain ⟨l, e, hl, he, htext⟩ := exists_layout htext
  have hread : readRecords text = recordsOfObjects 0 (rows.map Row.members) := by
    rw [readRecords, Row.readAll_written hl he htext]
  rw [hread]
  constructor
  · intro hfinite
    have hrowsFinite : ∀ row ∈ rows, row.Finite := by
      intro row hrow cell hcell
      obtain ⟨name, value⟩ := cell
      cases value with
      | number x => exact hfinite row hrow name x hcell
      | text s => trivial
    refine ⟨rows.map Row.record, Row.recordsOfObjects_of_finite hrows hrowsFinite 0, ?_⟩
    rw [List.forall₂_map_right_iff, List.forall₂_same]
    intro row hrow name value
    rw [← Dictionary.mem_entries_iff]
    exact Row.mem_record_iff (hrows row hrow)
  · rintro ⟨bad, hbad, name, x, hcell, hx⟩
    have hnot : ¬ Value.Finite (.number x) := by
      intro h
      rw [Value.Finite, hx] at h
      cases h
    obtain ⟨i, row, ⟨name', value⟩, hi, hcell', hnot', herror⟩ :=
      Row.recordsOfObjects_of_not_finite hrows ⟨bad, hbad, fun h => hnot (h _ hcell)⟩ 0
    rw [Nat.zero_add] at herror
    cases value with
    | number y => exact ⟨i, row, name', y, hi, hcell', Bool.eq_false_iff.mpr hnot', herror⟩
    | text s => exact absurd trivial hnot'

/-- Columns and texts that need escapes, minus zero, a fraction, and a row of nothing. -/
def oddRows : List Row :=
  [[("say \"\\\"", .text "a\nb\x01é𝄞"), ("zero", .number ⟨0x8000000000000000⟩),
      ("", .number ⟨0x3FB999999999999A⟩)],
    []]

/-- A row with a NaN. -/
def lostRows : List Row :=
  [[("room", .text "DMP310"), ("seats", .number ⟨0x7FF8000000000000⟩)]]

theorem oddRows_read :
    (Row.listToJson oddRows).compact =
        "[\x7b\"say \\\"\\\\\\\"\":\"a\\nb\\u0001é𝄞\",\"zero\":-0.0,\"\":0.1\x7d,\x7b\x7d]" ∧
      (∃ records, readRecords (Row.listToJson oddRows).compact = .ok records ∧
        List.Forall₂ (fun row record =>
          ∀ name value, record.get? name = some value ↔ (name, value) ∈ row) oddRows records) ∧
      ∃ i row name x, lostRows[i]? = some row ∧ (name, Value.number x) ∈ row ∧
        x.isFinite = false ∧
        readRecords (printedRows lostRows) = .error (.member i name "null") := by
  have hfinite : ∀ row ∈ oddRows, ∀ cell ∈ row, cell.2.Finite := by decide
  refine ⟨by decide +kernel, ?_, ?_⟩
  · apply (readRecords_written (by decide) (.inl rfl)).1
    intro row hrow name x hcell
    exact hfinite row hrow (name, .number x) hcell
  · apply (readRecords_written (by decide) (.inr (.inr rfl))).2
    exact ⟨_, List.mem_cons_self, "seats", ⟨0x7FF8000000000000⟩, by decide, by decide⟩

end Tabular
