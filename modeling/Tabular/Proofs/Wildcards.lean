import Tabular.Proofs.Selection
import Tabular.Proofs.WrittenPatterns

/-!
# Stars stand for any text

The operand of `IS` is read as a glob: a star stands for any text and every other character
for itself (`Glob`). A pattern has stars at its ends only, and is looked for in one of two
ways: without stars it is compared, and with stars it is searched for as an expression, the
literal between the start and the end of the text with anything at an open end
(`Pattern.expression`). What is taken of a searcher is that it finds the texts in which the
expression matches (`MatchingSearcher`). `Comparison.select_glob` is that both ways together
select the texts of the glob.

What a pattern describes, what its glob has and what its expression matches are each brought
to one form: the literal with some text in front of it and behind it, which is empty at an end
that is not open (`Pattern.Surrounds`).
-/

namespace Tabular

/-! ## Globs -/

/-- The texts of a glob. -/
inductive Glob : List Char → List Char → Prop
  | nil : Glob [] []
  | star {glob s : List Char} (front : List Char) (h : Glob glob s) :
      Glob ('*' :: glob) (front ++ s)
  | char {c : Char} {glob s : List Char} (hc : c ≠ '*') (h : Glob glob s) :
      Glob (c :: glob) (c :: s)

namespace Pattern

/-- The literal of a pattern with text around it, at its open ends. -/
def Surrounds (p : Pattern) (front s back : List Char) : Prop :=
  s = front ++ (p.literal.toList ++ back) ∧ (p.openStart = false → front = []) ∧
    (p.openEnd = false → back = [])

/-- What a pattern describes is its literal with text around it. -/
theorem describes_iff {p : Pattern} {s : String} :
    p.Describes s ↔ ∃ front back, p.Surrounds front s.toList back := by
  obtain ⟨openStart, literal, openEnd⟩ := p
  cases openStart <;> cases openEnd <;>
    simp [Describes, Surrounds, List.IsPrefix, List.IsSuffix, List.IsInfix, eq_comm,
      ← String.toList_inj]

end Pattern

namespace Glob

variable {glob s : List Char}

theorem nil_iff : Glob [] s ↔ s = [] := by
  constructor
  · intro h
    cases h
    rfl
  · rintro rfl
    exact .nil

theorem char_iff {c : Char} (hc : c ≠ '*') :
    Glob (c :: glob) s ↔ ∃ t, s = c :: t ∧ Glob glob t := by
  constructor
  · intro h
    cases h with
    | star _ _ => exact absurd rfl hc
    | char _ h => exact ⟨_, rfl, h⟩
  · rintro ⟨t, rfl, h⟩
    exact .char hc h

/-- A star, where there is one, takes a text off the front. -/
theorem star_append_iff {isOpen : Bool} : Glob (Pattern.star isOpen ++ glob) s ↔
    ∃ front back, s = front ++ back ∧ (isOpen = false → front = []) ∧ Glob glob back := by
  cases isOpen with
  | false =>
    show Glob glob s ↔ _
    constructor
    · intro h
      exact ⟨[], s, rfl, fun _ => rfl, h⟩
    · rintro ⟨front, back, rfl, hfront, h⟩
      rw [hfront rfl]
      exact h
  | true =>
    show Glob ('*' :: glob) s ↔ _
    constructor
    · intro h
      cases h with
      | star front h => exact ⟨front, _, rfl, nofun, h⟩
      | char hc _ => exact absurd rfl hc
    · rintro ⟨front, back, rfl, -, h⟩
      exact .star front h

/-- Characters that are no stars stand for themselves. -/
theorem literal_append_iff {literal : List Char} (h : '*' ∉ literal) :
    Glob (literal ++ glob) s ↔ ∃ t, s = literal ++ t ∧ Glob glob t := by
  induction literal generalizing s with
  | nil => simp
  | cons c literal ih =>
    obtain ⟨hc, hliteral⟩ : '*' ≠ c ∧ '*' ∉ literal := by simpa using h
    rw [List.cons_append, char_iff hc.symm]
    constructor
    · rintro ⟨t, rfl, ht⟩
      obtain ⟨u, rfl, hu⟩ := (ih hliteral).mp ht
      exact ⟨u, rfl, hu⟩
    · rintro ⟨u, rfl, hu⟩
      exact ⟨literal ++ u, rfl, (ih hliteral).mpr ⟨u, rfl, hu⟩⟩

/-- The glob of a pattern has the texts that the pattern describes. -/
theorem text_iff {p : Pattern} (h : '*' ∉ p.literal.toList) {s : String} :
    Glob p.text.toList s.toList ↔ p.Describes s := by
  have htext : p.text.toList = Pattern.star p.openStart ++
      (p.literal.toList ++ (Pattern.star p.openEnd ++ [])) := by
    rw [Pattern.toList_text, List.append_nil]
  rw [htext, Pattern.describes_iff, star_append_iff]
  constructor
  · rintro ⟨front, rest, hs, hfront, hrest⟩
    obtain ⟨behind, rfl, hbehind⟩ := (literal_append_iff h).mp hrest
    obtain ⟨back, last, rfl, hback, hlast⟩ := star_append_iff.mp hbehind
    rw [nil_iff.mp hlast, List.append_nil] at hs
    exact ⟨front, back, hs, hfront, hback⟩
  · rintro ⟨front, back, hs, hfront, hback⟩
    refine ⟨front, p.literal.toList ++ back, hs, hfront, (literal_append_iff h).mpr ?_⟩
    refine ⟨back, rfl, star_append_iff.mpr ⟨back, [], ?_, hback, .nil⟩⟩
    rw [List.append_nil]

end Glob

/-! ## Expressions -/

/-- The parts of the expressions that are searched for. -/
inductive Part where
  /-- The start of the text. -/
  | start
  /-- Any characters, line ends among them. -/
  | anything
  /-- These characters, none of which has a meaning of its own. -/
  | literal (characters : List Char)
  /-- The end of the text. -/
  | stop
  deriving DecidableEq, Repr

/-- Parts match, one behind the other, just what stands between `before` and `after`. -/
inductive Part.Match : List Part → (before inside after : List Char) → Prop
  | nil {before after : List Char} : Match [] before [] after
  | start {parts : List Part} {inside after : List Char} (h : Match parts [] inside after) :
      Match (.start :: parts) [] inside after
  | anything {parts : List Part} {before inside after : List Char} (taken : List Char)
      (h : Match parts (before ++ taken) inside after) :
      Match (.anything :: parts) before (taken ++ inside) after
  | literal {parts : List Part} {before inside after characters : List Char}
      (h : Match parts (before ++ characters) inside after) :
      Match (.literal characters :: parts) before (characters ++ inside) after
  | stop {parts : List Part} {before : List Char} (h : Match parts before [] []) :
      Match (.stop :: parts) before [] []

/-- Parts are found in a text if they match somewhere in it. -/
def Part.FoundIn (parts : List Part) (s : String) : Prop :=
  ∃ before inside after, s.toList = before ++ (inside ++ after) ∧
    Part.Match parts before inside after

/-- Anything at an open end. -/
def Part.gap (isOpen : Bool) : List Part := if isOpen then [.anything] else []

/-- The expression of a pattern: from the start of the text to its end the literal, with
anything at an open end. -/
def Pattern.expression (p : Pattern) : List Part :=
  .start :: (Part.gap p.openStart ++ .literal p.literal.toList :: (Part.gap p.openEnd ++ [.stop]))

namespace Part

variable {parts : List Part} {before inside after : List Char}

theorem match_start_iff :
    Match (.start :: parts) before inside after ↔ before = [] ∧ Match parts [] inside after := by
  constructor
  · intro h
    cases h with
    | start h => exact ⟨rfl, h⟩
  · rintro ⟨rfl, h⟩
    exact .start h

theorem match_literal_iff {characters : List Char} :
    Match (.literal characters :: parts) before inside after ↔ ∃ rest,
      inside = characters ++ rest ∧ Match parts (before ++ characters) rest after := by
  constructor
  · intro h
    cases h with
    | literal h => exact ⟨_, rfl, h⟩
  · rintro ⟨rest, rfl, h⟩
    exact .literal h

theorem match_stop_iff : Match [.stop] before inside after ↔ inside = [] ∧ after = [] := by
  constructor
  · intro h
    cases h
    exact ⟨rfl, rfl⟩
  · rintro ⟨rfl, rfl⟩
    exact .stop .nil

/-- A gap, where there is one, takes a text off the front. -/
theorem match_gap_iff {isOpen : Bool} : Match (gap isOpen ++ parts) before inside after ↔
    ∃ front rest, inside = front ++ rest ∧ (isOpen = false → front = []) ∧
      Match parts (before ++ front) rest after := by
  cases isOpen with
  | false =>
    show Match parts before inside after ↔ _
    constructor
    · intro h
      exact ⟨[], inside, rfl, fun _ => rfl, by rwa [List.append_nil]⟩
    · rintro ⟨front, rest, rfl, hfront, h⟩
      rw [hfront rfl] at h ⊢
      rwa [List.append_nil] at h
  | true =>
    show Match (.anything :: parts) before inside after ↔ _
    constructor
    · intro h
      cases h with
      | anything front h => exact ⟨front, _, rfl, nofun, h⟩
    · rintro ⟨front, rest, rfl, -, h⟩
      exact .anything front h

end Part

/-- The expression of a pattern is found in the texts that the pattern describes. -/
theorem Pattern.foundIn_expression_iff {p : Pattern} {s : String} :
    Part.FoundIn p.expression s ↔ p.Describes s := by
  rw [describes_iff]
  constructor
  · rintro ⟨before, inside, after, hs, hmatch⟩
    obtain ⟨rfl, hparts⟩ := Part.match_start_iff.mp hmatch
    obtain ⟨front, rest, rfl, hfront, hliteral⟩ := Part.match_gap_iff.mp hparts
    obtain ⟨behind, rfl, hbehind⟩ := Part.match_literal_iff.mp hliteral
    obtain ⟨back, last, rfl, hback, hlast⟩ := Part.match_gap_iff.mp hbehind
    obtain ⟨rfl, rfl⟩ := Part.match_stop_iff.mp hlast
    simp only [List.append_nil, List.nil_append] at hs
    exact ⟨front, back, hs, hfront, hback⟩
  · rintro ⟨front, back, hs, hfront, hback⟩
    refine ⟨[], s.toList, [], by simp, Part.match_start_iff.mpr ⟨rfl, ?_⟩⟩
    refine Part.match_gap_iff.mpr ⟨front, p.literal.toList ++ back, hs, hfront, ?_⟩
    refine Part.match_literal_iff.mpr ⟨back, rfl, ?_⟩
    refine Part.match_gap_iff.mpr ⟨back, [], by rw [List.append_nil], hback, ?_⟩
    exact Part.match_stop_iff.mpr ⟨rfl, rfl⟩

/-- A searcher finds the texts in which the expression of a pattern matches, as long as it
takes the pattern. -/
class MatchingSearcher [Searcher] : Prop where
  finds_iff {p : Pattern} {s : String} : p.isOpen = true → Searcher.takes p = true →
    (Searcher.finds p s = true ↔ Part.FoundIn p.expression s)

/-- A searcher that matches expressions is lawful. -/
theorem MatchingSearcher.lawful [Searcher] [MatchingSearcher] : LawfulSearcher where
  finds_iff hopen htakes := (finds_iff hopen htakes).trans Pattern.foundIn_expression_iff

/-- The searcher of the program matches expressions. -/
instance : MatchingSearcher where
  finds_iff hopen htakes :=
    (LawfulSearcher.finds_iff hopen htakes).trans Pattern.foundIn_expression_iff.symm

/-! ## Comparisons -/

section Searching

variable [Searcher]

/-- A pattern accepts what a record holds in a field iff that is a text which it admits. -/
theorem Comparison.verdict_admittedBy_iff {p : Pattern} {field : String} {r : Record} :
    verdict (.admittedBy p) field r = true ↔
      ∃ s, r.get? field = some (.text s) ∧ p.admits s = true := by
  unfold verdict
  cases hv : r.get? field with
  | none => simp
  | some v => cases v <;> simp [Predicate.test, Value.text?]

variable [MatchingSearcher]

/-- A pattern that can be looked for admits the texts of its glob. -/
theorem Pattern.admits_iff_glob {raw : String} {p : Pattern} (hraw : ofText? raw = some p)
    (hfits : p.fits = true) {s : String} : p.admits s = true ↔ Glob raw.toList s.toList := by
  have : LawfulSearcher := MatchingSearcher.lawful
  obtain ⟨rfl, hliteral⟩ := text_of_ofText? hraw
  rw [admits_iff hfits, Glob.text_iff hliteral]

/-- **A comparison by `IS` selects the texts of a glob.** Its operand is accepted iff its stars
stand at its ends. Then, if the pattern is not too large, a stored text is wanted iff it is in
the glob, and in a dataset where the field holds texts only the comparison selects the records
with a text of the glob. -/
theorem Comparison.select_glob (raw : String) :
    ((∃ p, Pattern.ofText? raw = some p) ↔ StarsAtEnds raw.toList) ∧
    ∀ (p : Pattern) (c : Comparison), Pattern.ofText? raw = some p → p.fits = true →
      c.operator = .is → c.literal = .string raw →
      (∃ predicate, c.predicate = .ok predicate ∧ predicate.checkSize = .ok () ∧
        ∀ s, ∃ wanted, predicate.test (.text s) = some wanted ∧
          (wanted = true ↔ Glob raw.toList s.toList)) ∧
      ∀ (d : Dataset) (field : String), d.resolve c.field = .ok field →
        Uniform .is field d.records →
        ∃ found, Filter.select d (.comparison c) = .ok found ∧
          ∀ i, i ∈ found ↔ ∃ r s, d.records[i]? = some r ∧ r.get? field = some (.text s) ∧
            Glob raw.toList s.toList := by
  refine ⟨Pattern.exists_ofText?_iff, ?_⟩
  intro p c hp hfits hoperator hliteral
  have hpredicate : c.predicate = .ok (.admittedBy p) :=
    predicate_eq_ok_iff.mpr ⟨hoperator.symm, raw, hliteral, hp⟩
  have hsize : (Predicate.admittedBy p).checkSize = .ok () := by
    simp [Predicate.checkSize, hfits]
  have hadmits : ∀ s, p.admits s = true ↔ Glob raw.toList s.toList := by
    intro s
    exact Pattern.admits_iff_glob hp hfits
  refine ⟨⟨.admittedBy p, hpredicate, hsize, fun s => ⟨p.admits s, rfl, hadmits s⟩⟩, ?_⟩
  intro d field hfield huniform
  refine ⟨.ofFlags (d.records.map (verdict (.admittedBy p) field)), ?_, ?_⟩
  · rw [Filter.select]
    exact select_eq_ok_iff.mpr ⟨field, _, hfield, hpredicate, hsize, huniform, rfl⟩
  · intro i
    rw [Positions.mem_ofFlags, List.getElem?_map, Option.map_eq_some_iff]
    simp only [verdict_admittedBy_iff, hadmits, exists_and_left]

end Searching

/-- Of these texts the first and the last have the literal inside: it overlaps itself in the
one, and the dot of the others is a dot. -/
theorem dotted_glob :
    let c : Comparison := ⟨"notes_line", .is, .string "*a.a*"⟩
    let d : Dataset := ⟨"notes", .courses, [.ofList [("line", .text "\na.a.a\n")],
      .ofList [("line", .text "aba")], .ofList [], .ofList [("line", .text "a.a")]]⟩
    StarsAtEnds "*a.a*".toList ∧ d.resolve c.field = .ok "line" ∧
      Comparison.Uniform .is "line" d.records ∧
      Filter.select d (.comparison c) = .ok (.ofList [0, 3]) ∧
      ∀ i, i ∈ Positions.ofList [0, 3] ↔ ∃ r s, d.records[i]? = some r ∧
        r.get? "line" = some (.text s) ∧ Glob "*a.a*".toList s.toList := by
  intro c d
  obtain ⟨haccepted, hselect⟩ := Comparison.select_glob "*a.a*"
  have hp : Pattern.ofText? "*a.a*" = some ⟨true, "a.a", true⟩ := by decide +kernel
  have hfield : d.resolve c.field = .ok "line" := by decide +kernel
  have hfound : Filter.select d (.comparison c) = .ok (.ofList [0, 3]) := by decide +kernel
  have huniform : ∀ r ∈ d.records, ∀ v ∈ r.get? "line", Operator.is.Suits v := by decide +kernel
  obtain ⟨-, hdataset⟩ := hselect _ c hp (by decide +kernel) rfl rfl
  obtain ⟨found, hfound', hmem⟩ := hdataset d "line" hfield huniform
  rw [hfound] at hfound'
  cases hfound'
  exact ⟨haccepted.mp ⟨_, hp⟩, hfield, huniform, hfound, hmem⟩

end Tabular
