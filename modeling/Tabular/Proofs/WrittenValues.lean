import Tabular.Proofs.ReadRecords

/-!
# Single values and kinds that were written read back

The texts of field values are the JSON texts of strings and numbers (`Value.read_eq_ok_iff`),
so a value that was written is read as it was, bit by bit, and the null in place of a number
that is not finite is refused (`Value.read_written`). A kind is read from its name, or from an
object with its name as the only key and null behind it (`Json.Reader.takes_kind_iff`), in any
arrangement of blanks (`Kind.read_written`).
-/

namespace Tabular

open Json.Reader

/-! ## Field values -/

namespace Value

/-- A text is that of a value iff it is the JSON text of a string or a number. -/
theorem read_eq_ok_iff {text : String} {v : Value} :
    read text = .ok v ↔ ∃ json, Json.read text = .ok json ∧ Of json v := by
  simp only [Json.read, Json.readAll_eq_ok_iff, ← ofJson?_eq_some_iff]
  unfold read Json.finish
  constructor
  · intro h
    split at h
    · cases h
    next taken htaken =>
      split at h
      · cases h
      next value hvalue =>
        cases hrest : skip taken.rest with
        | nil =>
          simp only [hrest] at h
          cases h
          exact ⟨taken.value, ⟨taken.rest, ⟨taken.shorter, htaken⟩, hrest⟩, hvalue⟩
        | cons c r =>
          simp only [hrest] at h
          cases h
  · rintro ⟨json, ⟨rest, ⟨hlt, htaken⟩, hrest⟩, hjson⟩
    simp only [htaken, hjson, hrest]

/-- Any other value in front is refused as neither a text nor a number, whatever follows it. -/
theorem read_eq_neither_iff {text : String} :
    read text = .error .neither ↔
      ∃ json rest, Takes (value Json.deepest) text.toList json rest ∧ ¬ json.Storable := by
  simp only [← exists_of_iff, ← ofJson?_eq_some_iff]
  unfold read
  constructor
  · intro h
    split at h
    · cases h
    next taken htaken =>
      split at h
      next hnone =>
        refine ⟨taken.value, taken.rest, ⟨taken.shorter, htaken⟩, ?_⟩
        rintro ⟨v, hv⟩
        rw [hnone] at hv
        cases hv
      · split at h <;> cases h
  · rintro ⟨json, rest, ⟨hlt, htaken⟩, hjson⟩
    have hnone : ofJson? json = none := by
      rw [Option.eq_none_iff_forall_ne_some]
      intro v hv
      exact hjson ⟨v, hv⟩
    simp only [htaken, hnone]

variable {l : Json.Layout} {b e : List Char} {text : String}

/-- **A value that was written reads back**, with blanks around it, unless it is a number that
is not finite: that is written as null, which no field holds. -/
theorem read_written (v : Value) (hb : Blanks b) (he : Blanks e)
    (htext : text.toList = b ++ (Json.write l 0 v.toJson ++ e)) :
    (v.Finite → read text = .ok v) ∧ (¬ v.Finite → read text = .error .neither) := by
  have hclosed : Closed e := by
    rw [← List.append_nil e]
    exact closed_append he closed_nil
  have htakes : Takes (value Json.deepest) text.toList v.toJson e := by
    rw [htext]
    exact (reads_toJson (some (value 126)) l 0 v).takes b e hb hclosed
  constructor
  · intro hv
    refine read_eq_ok_iff.mpr ⟨v.toJson, ?_, ofJson?_eq_some_iff.mp (ofJson?_toJson hv)⟩
    exact Json.readAll_eq_ok_iff.mpr ⟨e, htakes, skip_blanks he⟩
  · intro hv
    refine read_eq_neither_iff.mpr ⟨v.toJson, e, htakes, ?_⟩
    rw [toJson_of_not_finite hv]
    exact id

end Value

/-! ## Kinds -/

theorem Kind.ofName?_eq_some_iff {name : String} {k : Kind} :
    ofName? name = some k ↔ name = k.name := by
  constructor
  · intro h
    have hname := List.find?_some h
    exact (of_decide_eq_true hname).symm
  · rintro rfl
    exact ofName?_name k

namespace Json.Reader

/-- The front of a text names a kind: as a string, or as the key of an object that binds
nothing else and binds it to null. -/
inductive NamesKind (k : Kind) (s rest : List Char) : Prop
  | name {r : List Char} (hs : skip s = '"' :: r) (hname : Takes characters r k.name rest)
  | key {r t u v w : List Char} (hs : skip s = '{' :: r) (hr : skip r = '"' :: t)
      (hname : Takes characters t k.name u) (hu : skip u = ':' :: v)
      (hv : skip v = 'n' :: 'u' :: 'l' :: 'l' :: w) (hw : skip w = '}' :: rest)

variable {k : Kind} {s rest : List Char}

theorem takes_kindName_iff : Takes kindName s k rest ↔ Takes characters s k.name rest := by
  unfold Takes kindName
  constructor
  · rintro ⟨hlt, h⟩
    split at h
    · cases h
    next name hname =>
      split at h
      next kind hkind =>
        cases h
        refine ⟨name.shorter, ?_⟩
        rw [hname, ← Kind.ofName?_eq_some_iff.mp hkind]
      · cases h
  · rintro ⟨hlt, h⟩
    refine ⟨hlt, ?_⟩
    simp only [h, Kind.ofName?_name]
    rfl

/-- A word is read where it stands. -/
theorem word_eq_ok_iff {letters : List Char} :
    (∃ h, word letters s = .ok ⟨rest, h⟩) ↔ s = letters ++ rest := by
  induction letters generalizing s with
  | nil =>
    constructor
    · rintro ⟨_, h⟩
      cases h
      rfl
    · rintro rfl
      exact ⟨Nat.le_refl _, rfl⟩
  | cons l letters ih =>
    cases s with
    | nil =>
      constructor
      · rintro ⟨_, h⟩
        cases h
      · intro h
        cases h
    | cons c s =>
      rw [word, List.cons_append, List.cons.injEq, ← ih]
      by_cases hc : c = l
      · rw [if_pos hc]
        constructor
        · rintro ⟨_, h⟩
          obtain ⟨r, hr, heq⟩ := map_eq_ok_iff.mp h
          cases heq
          exact ⟨hc, r.2, hr⟩
        · rintro ⟨-, hle, h⟩
          refine ⟨Nat.le_succ_of_le hle, ?_⟩
          rw [h]
          rfl
      · rw [if_neg hc]
        constructor
        · rintro ⟨_, h⟩
          cases h
        · rintro ⟨h, -⟩
          exact absurd h hc

theorem nullThenBrace_eq_ok_iff :
    (∃ h, nullThenBrace s = .ok ⟨rest, h⟩) ↔
      ∃ w, skip s = 'n' :: 'u' :: 'l' :: 'l' :: w ∧ skip w = '}' :: rest := by
  constructor
  · rintro ⟨hlt, h⟩
    unfold nullThenBrace at h
    split at h
    next r hs =>
      split at h
      · cases h
      next t ht =>
        have hr : r = ['u', 'l', 'l'] ++ t.1 := word_eq_ok_iff.mp ⟨t.2, ht⟩
        split at h
        next u hu =>
          cases h
          exact ⟨t.1, hs.trans (congrArg _ hr), hu⟩
        · cases h
        · cases h
    · cases h
  · rintro ⟨w, hs, hw⟩
    obtain ⟨hle, hword⟩ : ∃ h, word ['u', 'l', 'l'] ('u' :: 'l' :: 'l' :: w) = .ok ⟨w, h⟩ :=
      word_eq_ok_iff.mpr rfl
    have hshort := length_lt_of_skip_eq hs
    have hbrace := length_lt_of_skip_eq hw
    refine ⟨by simp only [List.length_cons] at hshort; omega, ?_⟩
    unfold nullThenBrace
    split
    next heq =>
      rw [hs] at heq
      cases heq
      simp only [hword]
      split
      next heq =>
        rw [hw] at heq
        cases heq
        rfl
      next heq =>
        rw [hw] at heq
        cases heq
      next hne heq =>
        rw [hw] at heq
        cases heq
        exact (hne rfl).elim
    next hne => exact (hne _ hs).elim

theorem NamesKind.of_takes (h : Takes kind s k rest) : NamesKind k s rest := by
  obtain ⟨hlt, h⟩ := h
  unfold kind at h
  split at h
  next r hs =>
    obtain ⟨t, ht, heq⟩ := map_eq_ok_iff.mp h
    cases heq
    exact .name hs (takes_kindName_iff.mp ⟨t.shorter, ht⟩)
  next r hs =>
    split at h
    next t hr =>
      split at h
      · cases h
      next kind u hshort hkind =>
        split at h
        next v hu =>
          obtain ⟨closed, hclosed, heq⟩ := map_eq_ok_iff.mp h
          cases heq
          obtain ⟨w, hv, hw⟩ := nullThenBrace_eq_ok_iff.mp ⟨closed.2, hclosed⟩
          exact .key hs hr (takes_kindName_iff.mp ⟨hshort, hkind⟩) hu hv hw
        · cases h
        · cases h
    · cases h
  · cases h
  · cases h

theorem takes_kind_of_name {r : List Char} (hs : skip s = '"' :: r)
    (hname : Takes characters r k.name rest) : Takes kind s k rest := by
  obtain ⟨hlt, hkind⟩ := takes_kindName_iff.mpr hname
  refine ⟨Nat.lt_trans hlt (length_lt_of_skip_eq hs), ?_⟩
  unfold kind
  split
  next heq =>
    rw [hs] at heq
    cases heq
    rw [hkind]
    rfl
  next heq =>
    rw [hs] at heq
    cases heq
  next heq =>
    rw [hs] at heq
    cases heq
  next hne _ heq =>
    rw [hs] at heq
    cases heq
    exact (hne rfl).elim

theorem takes_kind_of_key {r t u v w : List Char} (hs : skip s = '{' :: r) (hr : skip r = '"' :: t)
    (hname : Takes characters t k.name u) (hu : skip u = ':' :: v)
    (hv : skip v = 'n' :: 'u' :: 'l' :: 'l' :: w) (hw : skip w = '}' :: rest) :
    Takes kind s k rest := by
  obtain ⟨hkindShort, hkind⟩ := takes_kindName_iff.mpr hname
  obtain ⟨hnullShort, hnull⟩ := nullThenBrace_eq_ok_iff.mpr ⟨w, hv, hw⟩
  have hbrace := length_lt_of_skip_eq hs
  have hquote := length_lt_of_skip_eq hr
  have hcolon := length_lt_of_skip_eq hu
  refine ⟨by omega, ?_⟩
  unfold kind
  split
  next heq =>
    rw [hs] at heq
    cases heq
  next heq =>
    rw [hs] at heq
    cases heq
    split
    next heq =>
      rw [hr] at heq
      cases heq
      simp only [hkind]
      split
      next heq =>
        rw [hu] at heq
        cases heq
        rw [hnull]
        rfl
      next heq =>
        rw [hu] at heq
        cases heq
      next hne heq =>
        rw [hu] at heq
        cases heq
        exact (hne rfl).elim
    next hne => exact (hne _ hr).elim
  next heq =>
    rw [hs] at heq
    cases heq
  next _ hne heq =>
    rw [hs] at heq
    cases heq
    exact (hne rfl).elim

/-- **A kind is read where it is named**, and nowhere else. -/
theorem takes_kind_iff : Takes kind s k rest ↔ NamesKind k s rest := by
  constructor
  · exact NamesKind.of_takes
  · intro h
    cases h with
    | name hs hname => exact takes_kind_of_name hs hname
    | key hs hr hname hu hv hw => exact takes_kind_of_key hs hr hname hu hv hw

end Json.Reader

namespace Kind

theorem read_eq_ok_iff {text : String} {k : Kind} :
    read text = .ok k ↔ ∃ rest, NamesKind k text.toList rest ∧ skip rest = [] := by
  simp only [read, Json.readAll_eq_ok_iff, takes_kind_iff]

variable {l : Json.Layout} {b e : List Char} {text : String}

/-- **A kind that was written reads back**, from its name and from an object that binds its
name to null, in any layout of blanks and with blanks around. -/
theorem read_written (k : Kind) (hl : l.Blank) (hb : Blanks b) (he : Blanks e)
    (htext : text.toList = b ++ (Json.write l 0 (.string k.name) ++ e) ∨
      text.toList = b ++ (Json.write l 0 (.object [(k.name, .null)]) ++ e)) :
    read text = .ok k := by
  refine read_eq_ok_iff.mpr ⟨e, ?_, skip_blanks he⟩
  rcases htext with htext | htext
  · rw [htext, Json.write, Json.quoted_append]
    exact .name (skip_token hb rfl _) (takes_characters k.name e)
  · obtain ⟨c, hc, hcolon⟩ := hl.colon
    rw [htext, Json.write, Json.write, Json.writeMembers, hcolon]
    simp only [List.cons_append, List.append_assoc, List.nil_append, Json.quoted_append]
    exact .key (skip_token hb rfl _) (skip_token (hl.line 1) rfl _) (takes_characters k.name _)
      (skip_cons rfl _) (skip_token hc rfl _) (skip_token (hl.line 0) rfl _)

end Kind

end Tabular
