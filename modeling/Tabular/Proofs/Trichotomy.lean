import Tabular.Proofs.ReadRecords
import Tabular.Proofs.Resolution

/-!
# Below, equal or above

A number is below another, equal to it or above it, unless one of them is a NaN. No NaN is
stored: a number of double precision that is read from a text is finite, and so is a whole
number once it is rounded. So over a field of numbers the three comparisons with one number
part the records that have the field (`Comparison.select_trichotomy`).

Stored numbers and the operands of comparisons are read by one reader, which sees nothing but
the characters of the number. So one text is one number on both sides (`Json.number_unique`),
also where the number is rounded or is minus zero.
-/

namespace Tabular

open Json.Reader

/-! ## Three relations -/

namespace Binary64

/-- No number stands to another in two of the relations. -/
theorem lt_eq_gt_exclusive (x y : Binary64) :
    ¬ (x.lt y = true ∧ x.eq y = true) ∧ ¬ (x.lt y = true ∧ y.lt x = true) ∧
      ¬ (x.eq y = true ∧ y.lt x = true) := by
  simp only [lt, eq, Bool.and_eq_true, decide_eq_true_eq, beq_iff_eq]
  omega

theorem eq_self {x : Binary64} (h : x.isNaN = false) : x.eq x = true := by
  simp [eq, h]

end Binary64

theorem Json.Number.not_isNaN (n : Json.Number) : n.toBinary64.isNaN = false := by
  cases n with
  | integer i => exact Binary64.isNaN_ofInt i
  | real x hx => exact Binary64.not_isNaN_of_isFinite hx

/-! ## Numbers and their texts -/

namespace Json

/-- The value is read somewhere, from these characters. -/
def SpelledBy (v : Json) (t : List Char) : Prop :=
  ∃ depth s rest, Takes (Reader.value depth) s v rest ∧ t = front (skip s) rest

theorem Written.At.spelledBy {depth : Nat} {s rest : List Char} {w : Written}
    (h : w.At depth s rest) : w.value.SpelledBy w.text := by
  obtain ⟨_, _, u, -, -, -, hv, htext⟩ := h
  exact ⟨depth, u, rest, hv, htext⟩

/-- The characters of a number are read as it by themselves, and it is finite. -/
theorem takes_number_of_spelledBy {n : Number} {t : List Char} (h : (number n).SpelledBy t) :
    n.toBinary64.isFinite = true ∧ Takes Reader.number t n [] := by
  obtain ⟨depth, s, rest, hread, rfl⟩ := h
  obtain ⟨inner, hinner⟩ := exists_valueWith depth
  rw [hinner] at hread
  obtain ⟨c, r, hs, -, hnumber⟩ := valueWith_cases hread
  obtain ⟨hfinite, t, ht, htakes⟩ := Takes.number_front hnumber
  rw [hs, ht, front_append]
  exact ⟨hfinite, htakes⟩

/-- Characters are read as one number, wherever they stand. -/
theorem number_unique {m n : Number} {t : List Char} (hm : (number m).SpelledBy t)
    (hn : (number n).SpelledBy t) : m = n := by
  obtain ⟨-, _, hm⟩ := takes_number_of_spelledBy hm
  obtain ⟨-, _, hn⟩ := takes_number_of_spelledBy hn
  rw [hm] at hn
  cases hn
  rfl

theorem WritesObjects.spelledBy {text : String} {written : List (List Written)}
    (h : WritesObjects text written) {ws : List Written} (hws : ws ∈ written) {w : Written}
    (hw : w ∈ ws) : w.value.SpelledBy w.text := by
  obtain ⟨r, rest, -, hobjects, -⟩ := h
  obtain ⟨s, rest, r, -, hmembers⟩ := hobjects.exists_item hws
  obtain ⟨s, rest, hat⟩ := hmembers.exists_item hw
  exact hat.spelledBy

end Json

/-- **No number is read that is not finite.** -/
theorem finite_of_readRecords {text : String} {records : List Record}
    (h : readRecords text = .ok records) :
    ∀ record ∈ records, ∀ key x, record.get? key = some (.number x) → x.isFinite = true := by
  intro record hrecord key x hx
  obtain ⟨written, hwritten⟩ := exists_written h
  obtain ⟨ws, hws, hbinds⟩ := exists_of_mem_forall₂ (binds_written h hwritten) hrecord
  obtain ⟨json, hmem, hof⟩ := (hbinds key _).mp hx
  obtain ⟨w, ⟨before, behind, rfl, -⟩, -, rfl⟩ := Json.Written.mem_bindings_iff.mp hmem
  have hspelled := hwritten.spelledBy hws (w := w) (by simp)
  generalize w.value = json at hof hspelled
  cases hof with
  | number n => exact (Json.takes_number_of_spelledBy hspelled).1

/-- What is written under a key where a number is stored is that number, if it is written as
the number is. -/
theorem stored_of_spelledBy {text : String} {records : List Record}
    (h : readRecords text = .ok records) {written : List (List Json.Written)}
    (hwritten : Json.WritesObjects text written) {i : Nat} {ws : List Json.Written}
    (hws : written[i]? = some ws) {w : Json.Written} (hlast : Json.Written.Last ws w)
    {n : Json.Number} (hn : (Json.number n).SpelledBy w.text)
    (hnumber : ∀ record, records[i]? = some record →
      ∀ value, record.get? w.key = some value → ∃ x, value = .number x) :
    ∃ record, records[i]? = some record ∧
      record.get? w.key = some (.number n.toBinary64) := by
  obtain ⟨record, value, hrecord, hvalue, hof⟩ := exists_get?_of_written h hwritten hws hlast
  obtain ⟨x, rfl⟩ := hnumber record hrecord value hvalue
  have hw : w.value.SpelledBy w.text := by
    obtain ⟨before, behind, rfl, -⟩ := hlast
    exact hwritten.spelledBy (List.mem_of_getElem? hws) (by simp)
  generalize w.value = json at hof hw
  cases hof with
  | number m =>
    cases Json.number_unique hw hn
    exact ⟨record, hrecord, hvalue⟩

/-! ## Comparisons with a number -/

section Searching

variable [Searcher]

namespace Comparison

/-- A comparison with a number makes a predicate that asks of numbers what the operator
does. -/
theorem exists_predicate_number {o : Operator} (ho : o ≠ .is) (name : String)
    (c : Json.Number) :
    ∃ p, predicate ⟨name, o, .number c⟩ = .ok p ∧ p.checkSize = .ok () ∧ p.operator = o ∧
      ∀ x, p.test (.number x) = some true ↔ o.Accepts (.number c) (.number x) := by
  cases o with
  | is => exact absurd rfl ho
  | eq =>
    refine ⟨.equal c.toBinary64, rfl, rfl, rfl, fun x => ?_⟩
    simp [Predicate.test, Value.number?, Operator.Accepts]
  | lt =>
    refine ⟨.below c.toBinary64, rfl, rfl, rfl, fun x => ?_⟩
    simp [Predicate.test, Value.number?, Operator.Accepts]
  | gt =>
    refine ⟨.above c.toBinary64, rfl, rfl, rfl, fun x => ?_⟩
    simp [Predicate.test, Value.number?, Operator.Accepts]

/-- Over numbers, a comparison with a number can be evaluated, and selects of the records
that have the field those whose number the operator accepts. -/
theorem exists_select_number {o : Operator} (ho : o ≠ .is) {d : Dataset} {name f : String}
    (hname : d.resolve name = .ok f)
    (hnumbers : ∀ r ∈ d.records, ∀ v, r.get? f = some v → ∃ x, v = .number x)
    (c : Json.Number) :
    ∃ found, select ⟨name, o, .number c⟩ d = .ok found ∧
      (∀ i ∈ found, ∃ r x, d.records[i]? = some r ∧ r.get? f = some (.number x)) ∧
      ∀ i r x, d.records[i]? = some r → r.get? f = some (.number x) →
        (i ∈ found ↔ o.Accepts (.number c) (.number x)) := by
  obtain ⟨p, hp, hsize, hoperator, htest⟩ := exists_predicate_number ho name c
  have huniform : Uniform p.operator f d.records := by
    intro r hr v hv
    obtain ⟨x, rfl⟩ := hnumbers r hr v hv
    rw [hoperator]
    cases o with
    | is => exact absurd rfl ho
    | eq | lt | gt => exact trivial
  refine ⟨_, select_eq_ok_iff.mpr ⟨f, p, hname, hp, hsize, huniform, rfl⟩, ?_, ?_⟩
  · intro i hi
    rw [Positions.mem_ofFlags, List.getElem?_map, Option.map_eq_some_iff] at hi
    obtain ⟨r, hr, hverdict⟩ := hi
    cases hv : r.get? f with
    | none => simp [verdict, hv] at hverdict
    | some v =>
      obtain ⟨x, rfl⟩ := hnumbers r (List.mem_of_getElem? hr) v hv
      exact ⟨r, x, hr, hv⟩
  · intro i r x hr hx
    rw [Positions.mem_ofFlags, List.getElem?_map, hr, Option.map_some, Option.some.injEq,
      ← htest, verdict, hx, Option.bind_some]
    cases p.test (.number x) <;> simp

/-- Over finite numbers, the comparisons with a number part the records that have the field,
and those with the number itself are equal to it. -/
theorem exists_parted {d : Dataset} {name f : String} (hname : d.resolve name = .ok f)
    (hnumbers : ∀ r ∈ d.records, ∀ v, r.get? f = some v →
      ∃ x, v = .number x ∧ x.isFinite = true)
    (c : Json.Number) :
    ∃ below same above,
      select ⟨name, .lt, .number c⟩ d = .ok below ∧
      select ⟨name, .eq, .number c⟩ d = .ok same ∧
      select ⟨name, .gt, .number c⟩ d = .ok above ∧
      (∀ i, ¬ (i ∈ below ∧ i ∈ same) ∧ ¬ (i ∈ below ∧ i ∈ above) ∧
        ¬ (i ∈ same ∧ i ∈ above)) ∧
      (∀ i, i ∈ below ∨ i ∈ same ∨ i ∈ above ↔
        ∃ r, d.records[i]? = some r ∧ r.contains f = true) ∧
      ∀ i r, d.records[i]? = some r → r.get? f = some (.number c.toBinary64) → i ∈ same := by
  have hall : ∀ r ∈ d.records, ∀ v, r.get? f = some v → ∃ x, v = .number x := by
    intro r hr v hv
    obtain ⟨x, hx, -⟩ := hnumbers r hr v hv
    exact ⟨x, hx⟩
  obtain ⟨below, hbelow, hin, hmem⟩ := exists_select_number (o := .lt) (by decide) hname hall c
  obtain ⟨same, hsame, hin', hmem'⟩ := exists_select_number (o := .eq) (by decide) hname hall c
  obtain ⟨above, habove, hin'', hmem''⟩ :=
    exists_select_number (o := .gt) (by decide) hname hall c
  have hplace : ∀ i, i ∈ below ∨ i ∈ same ∨ i ∈ above →
      ∃ r x, d.records[i]? = some r ∧ r.get? f = some (.number x) := by
    rintro i (hi | hi | hi)
    · exact hin i hi
    · exact hin' i hi
    · exact hin'' i hi
  refine ⟨below, same, above, hbelow, hsame, habove, ?_, ?_, ?_⟩
  · intro i
    by_cases hi : i ∈ below ∨ i ∈ same ∨ i ∈ above
    · obtain ⟨r, x, hr, hx⟩ := hplace i hi
      rw [hmem i r x hr hx, hmem' i r x hr hx, hmem'' i r x hr hx]
      exact x.lt_eq_gt_exclusive c.toBinary64
    · rw [not_or, not_or] at hi
      exact ⟨fun h => hi.1 h.1, fun h => hi.1 h.1, fun h => hi.2.1 h.1⟩
  · intro i
    constructor
    · intro hi
      obtain ⟨r, x, hr, hx⟩ := hplace i hi
      exact ⟨r, hr, Dictionary.contains_iff.mpr ⟨_, hx⟩⟩
    · rintro ⟨r, hr, hcontains⟩
      obtain ⟨v, hv⟩ := Dictionary.contains_iff.mp hcontains
      obtain ⟨x, rfl, hx⟩ := hnumbers r (List.mem_of_getElem? hr) v hv
      rw [hmem i r x hr hv, hmem' i r x hr hv, hmem'' i r x hr hv]
      exact Binary64.lt_or_eq_or_gt (Binary64.not_isNaN_of_isFinite hx) c.not_isNaN
  · intro i r hr hvalue
    rw [hmem' i r _ hr hvalue]
    exact Binary64.eq_self c.not_isNaN

end Comparison

/-- **Below, equal or above.** The numbers that are read are finite. Over a field of numbers
the comparisons with a number can all be evaluated; no two of them select one record, and
together they select the records that have the field. A number that is written as the operand
is equal to it. -/
theorem Comparison.select_trichotomy {text : String} {records : List Record}
    (hread : readRecords text = .ok records) :
    (∀ record ∈ records, ∀ key x, record.get? key = some (.number x) → x.isFinite = true) ∧
    ∀ (id f : String) (kind : Kind) (c : Json.Number),
      let d : Dataset := ⟨id, kind, records⟩
      NamePart id → NamePart f → f ∈ d.fields →
      (∀ record ∈ records, ∀ value, record.get? f = some value → ∃ x, value = .number x) →
      ∃ below same above,
        select ⟨qualify id f, .lt, .number c⟩ d = .ok below ∧
        select ⟨qualify id f, .eq, .number c⟩ d = .ok same ∧
        select ⟨qualify id f, .gt, .number c⟩ d = .ok above ∧
        (∀ i, ¬ (i ∈ below ∧ i ∈ same) ∧ ¬ (i ∈ below ∧ i ∈ above) ∧
          ¬ (i ∈ same ∧ i ∈ above)) ∧
        (∀ i, i ∈ below ∨ i ∈ same ∨ i ∈ above ↔
          ∃ record, records[i]? = some record ∧ record.contains f = true) ∧
        ∀ written i ws w, Json.WritesObjects text written → written[i]? = some ws →
          Json.Written.Last ws w → w.key = f → (Json.number c).SpelledBy w.text → i ∈ same := by
  refine ⟨finite_of_readRecords hread, ?_⟩
  intro id f kind c d hid hf hfield hnumbers
  have hname : d.resolve (qualify id f) = .ok f :=
    Dataset.resolve_eq_ok_iff_qualify.mpr ⟨⟨hid, hf, hfield⟩, rfl⟩
  have hfinite : ∀ r ∈ d.records, ∀ v, r.get? f = some v →
      ∃ x, v = .number x ∧ x.isFinite = true := by
    intro r hr v hv
    obtain ⟨x, rfl⟩ := hnumbers r hr v hv
    exact ⟨x, rfl, finite_of_readRecords hread r hr f x hv⟩
  obtain ⟨below, same, above, hbelow, hsame, habove, hapart, hunion, hequal⟩ :=
    exists_parted hname hfinite c
  refine ⟨below, same, above, hbelow, hsame, habove, hapart, hunion, ?_⟩
  intro written i ws w hwritten hws hlast hkey hspelled
  cases hkey
  obtain ⟨r, hr, hvalue⟩ := stored_of_spelledBy hread hwritten hws hlast hspelled
    fun r hr => hnumbers r (List.mem_of_getElem? hr)
  exact hequal i r hr hvalue

end Searching

/-- A whole number of which there is none in double precision. -/
def bigNumber : Json.Number := .integer 9007199254740993

def minusZero : Json.Number := .real ⟨0x8000000000000000⟩ (by decide)

/-- The big number, a record without one, and minus zero. -/
def oddNumbers : String := "[\x7b\"n\":9007199254740993\x7d,\x7b\x7d,\x7b\"n\":-0\x7d]"

/-- What stands in the text of the odd numbers. -/
def oddNumbersWritten : List (List Json.Written) :=
  [[⟨"n", .number bigNumber, "9007199254740993".toList⟩], [],
    [⟨"n", .number minusZero, "-0".toList⟩]]

theorem oddNumbers_written : Json.WritesObjects oddNumbers oddNumbersWritten := by
  have hmember : ∀ (n : Json.Number) (t rest : List Char),
      Takes (value (Json.deepest - 2)) (t ++ rest) (.number n) rest →
        skip (t ++ rest) = t ++ rest →
        Json.Written.At (Json.deepest - 2) ('"' :: 'n' :: '"' :: ':' :: (t ++ rest))
          ⟨"n", .number n, t⟩ rest := by
    intro n t rest hread hskip
    refine ⟨_, _, _, rfl, takes_characters "n" _, rfl, hread, ?_⟩
    rw [hskip, Json.front_append]
  have hbig := hmember bigNumber "9007199254740993".toList "\x7d,\x7b\x7d,\x7b\"n\":-0\x7d]".toList
    ⟨by decide, rfl⟩ rfl
  have hzero := hmember minusZero "-0".toList "\x7d]".toList ⟨by decide, rfl⟩ rfl
  refine ⟨_, [], rfl, .inr ?_, rfl⟩
  exact .more ⟨_, rfl, .inr (.last hbig rfl)⟩ rfl
    (.more ⟨_, rfl, .inl ⟨rfl, rfl⟩⟩ rfl (.last ⟨_, rfl, .inr (.last hzero rfl)⟩ rfl))

/-- The big number and minus zero are equal to what is written as they are, and no comparison
selects the record without a number. -/
theorem oddNumbers_parted :
    ∃ records, readRecords oddNumbers = .ok records ∧
      ∀ c i, (c, i) ∈ [(bigNumber, 0), (minusZero, 2)] →
        ∃ below same above,
          Comparison.select ⟨"rooms_n", .lt, .number c⟩ ⟨"rooms", .rooms, records⟩ = .ok below ∧
          Comparison.select ⟨"rooms_n", .eq, .number c⟩ ⟨"rooms", .rooms, records⟩ = .ok same ∧
          Comparison.select ⟨"rooms_n", .gt, .number c⟩ ⟨"rooms", .rooms, records⟩ = .ok above ∧
          i ∈ same ∧ 1 ∉ below ∧ 1 ∉ same ∧ 1 ∉ above := by
  let big : Record := .ofList [("n", .number bigNumber.toBinary64)]
  let zero : Record := .ofList [("n", .number minusZero.toBinary64)]
  have hread : readRecords oddNumbers = .ok [big, .empty, zero] := by decide +kernel
  have hnumbers : ∀ record ∈ [big, .empty, zero], ∀ value, record.get? "n" = some value →
      ∃ x, value = .number x := by
    intro record hrecord value hvalue
    simp only [List.mem_cons, List.not_mem_nil, or_false] at hrecord
    rcases hrecord with rfl | rfl | rfl
    · exact ⟨_, (Option.some.inj hvalue).symm⟩
    · cases hvalue
    · exact ⟨_, (Option.some.inj hvalue).symm⟩
  refine ⟨_, hread, ?_⟩
  intro c i hc
  obtain ⟨below, same, above, hbelow, hsame, habove, -, hunion, htext⟩ :=
    (Comparison.select_trichotomy hread).2 "rooms" "n" .rooms c (by decide) (by decide)
      (by decide) hnumbers
  have hlacks : ¬ (1 ∈ below ∨ 1 ∈ same ∨ 1 ∈ above) := by
    rw [hunion]
    rintro ⟨record, hrecord, hcontains⟩
    cases hrecord
    cases hcontains
  rw [not_or, not_or] at hlacks
  refine ⟨below, same, above, hbelow, hsame, habove, ?_, hlacks⟩
  simp only [List.mem_cons, List.not_mem_nil, or_false, Prod.mk.injEq] at hc
  rcases hc with ⟨rfl, rfl⟩ | ⟨rfl, rfl⟩
  · exact htext oddNumbersWritten 0 _ _ oddNumbers_written rfl ⟨[], [], rfl, by simp⟩ rfl
      ⟨0, "9007199254740993".toList, [], ⟨by decide, rfl⟩, rfl⟩
  · exact htext oddNumbersWritten 2 _ _ oddNumbers_written rfl ⟨[], [], rfl, by simp⟩ rfl
      ⟨0, "-0".toList, [], ⟨by decide, rfl⟩, rfl⟩

end Tabular
