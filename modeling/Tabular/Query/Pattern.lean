/-!
# Text patterns

A pattern is a literal with an open or a closed side at either end. It is
written with a star at each open end and describes the texts that the literal
becomes when any text is put there: the literal itself, what starts or ends with
it, or what contains it. A star anywhere else has no meaning, so a text that has
one is no pattern.

A pattern without open ends is compared. One with open ends is given to a
`Searcher`, which may find it too large; what is said of queries holds of every
searcher, and where it matters what is found, of every lawful one.
-/

namespace Tabular

/-- A literal, and at which ends more text may stand. -/
structure Pattern where
  openStart : Bool
  literal : String
  openEnd : Bool
  deriving DecidableEq, Repr

namespace Pattern

/-- The pattern that a text writes, if its stars stand at its ends only. The
first character is looked at first, so a lone star is an open start. -/
def ofText? (raw : String) : Option Pattern :=
  let openStart := raw.toList.head? == some '*'
  let rest := if openStart then raw.toList.tail else raw.toList
  let openEnd := rest.getLast? == some '*'
  let core := if openEnd then rest.dropLast else rest
  if core.contains '*' then none else some ⟨openStart, String.ofList core, openEnd⟩

/-- A star for an open end. -/
def star (isOpen : Bool) : List Char := if isOpen then ['*'] else []

/-- The written form. -/
def text (p : Pattern) : String :=
  String.ofList (star p.openStart ++ p.literal.toList ++ star p.openEnd)

/-- Whether `part` stands in the text at one of the first `n + 1` places. -/
def standsWithin (part : List Char) : Nat → List Char → Bool
  | 0, s => part.isPrefixOf s
  | n + 1, s => part.isPrefixOf s || standsWithin part n s.tail

/-- Whether `part` stands somewhere in the text. -/
def standsIn (part s : List Char) : Bool :=
  part.length ≤ s.length && standsWithin part (s.length - part.length) s

/-- Whether more text may stand at one of the ends. -/
def isOpen (p : Pattern) : Bool := p.openStart || p.openEnd

/-- The texts that a pattern describes: the literal itself, what starts or ends
with it, or what has it somewhere. -/
def Describes (p : Pattern) (s : String) : Prop :=
  match p.openStart, p.openEnd with
  | false, false => s = p.literal
  | false, true => p.literal.toList <+: s.toList
  | true, false => p.literal.toList <:+ s.toList
  | true, true => p.literal.toList <:+: s.toList

/-- The greatest size of a literal in UTF-8 bytes with one open end. -/
def longestAtEnd : Nat := 327644

/-- The greatest size of a literal in UTF-8 bytes with both ends open. -/
def longestInside : Nat := 327613

end Pattern

/-! ## Searching -/

/-- What searches texts for patterns with open ends. It may refuse a pattern as
too large; which ones, is its own affair. -/
class Searcher where
  /-- Whether a pattern is small enough to be searched for. -/
  takes : Pattern → Bool
  /-- Whether a text is one that the pattern describes. -/
  finds : Pattern → String → Bool

/-- A searcher finds what a pattern describes and nothing else, as long as it
takes the pattern. -/
class LawfulSearcher [Searcher] : Prop where
  finds_iff {p : Pattern} {s : String} : p.isOpen = true → Searcher.takes p = true →
    (Searcher.finds p s = true ↔ p.Describes s)

/-- The searcher of the program. -/
instance : Searcher where
  takes p :=
    if p.openStart && p.openEnd then p.literal.utf8ByteSize ≤ Pattern.longestInside
    else p.literal.utf8ByteSize ≤ Pattern.longestAtEnd
  finds p s :=
    if p.openStart && p.openEnd then Pattern.standsIn p.literal.toList s.toList
    else if p.openStart then p.literal.toList.isSuffixOf s.toList
    else p.literal.toList.isPrefixOf s.toList

namespace Pattern

theorem standsWithin_iff {part : List Char} {n : Nat} {s : List Char} :
    standsWithin part n s = true ↔ ∃ k ≤ n, part <+: s.drop k := by
  induction n generalizing s with
  | zero => simp [standsWithin]
  | succ n ih =>
    rw [standsWithin, Bool.or_eq_true, List.isPrefixOf_iff_prefix, ih]
    constructor
    · rintro (h | ⟨k, hk, h⟩)
      · exact ⟨0, Nat.zero_le _, h⟩
      · exact ⟨k + 1, Nat.succ_le_succ hk, by simpa using h⟩
    · rintro ⟨k, hk, h⟩
      cases k with
      | zero => exact .inl h
      | succ k => exact .inr ⟨k, Nat.le_of_succ_le_succ hk, by simpa using h⟩

theorem standsIn_iff {part s : List Char} : standsIn part s = true ↔ part <:+: s := by
  rw [standsIn, Bool.and_eq_true, decide_eq_true_eq, standsWithin_iff]
  constructor
  · rintro ⟨-, k, -, h⟩
    exact h.isInfix.trans (List.drop_suffix k s).isInfix
  · intro h
    obtain ⟨front, back, rfl⟩ := h
    refine ⟨by simp only [List.length_append]; omega, front.length, ?_, ?_⟩
    · simp only [List.length_append]
      omega
    · simp [List.append_assoc]

instance (p : Pattern) (s : String) : Decidable (p.Describes s) :=
  match p with
  | ⟨false, literal, false⟩ => instDecidableEqString s literal
  | ⟨false, literal, true⟩ =>
    decidable_of_iff (literal.toList.isPrefixOf s.toList = true) List.isPrefixOf_iff_prefix
  | ⟨true, literal, false⟩ =>
    decidable_of_iff (literal.toList.isSuffixOf s.toList = true) List.isSuffixOf_iff_suffix
  | ⟨true, literal, true⟩ =>
    decidable_of_iff (standsIn literal.toList s.toList = true) standsIn_iff

instance : LawfulSearcher where
  finds_iff {p s} hopen _ := by
    obtain ⟨openStart, literal, openEnd⟩ := p
    cases openStart <;> cases openEnd <;>
      simp_all [Searcher.finds, Describes, isOpen, standsIn_iff]

variable [Searcher]

/-- Whether the pattern can be looked for. One without open ends is compared and
has no limit. -/
def fits (p : Pattern) : Bool := !p.isOpen || Searcher.takes p

/-- Whether a text is taken for one that the pattern describes. -/
def admits (p : Pattern) (s : String) : Bool :=
  if p.isOpen then Searcher.finds p s else s == p.literal

/-- A pattern that can be looked for admits the texts that it describes. -/
theorem admits_iff [LawfulSearcher] {p : Pattern} (h : p.fits = true) {s : String} :
    p.admits s = true ↔ p.Describes s := by
  unfold admits
  split
  next hopen =>
    refine LawfulSearcher.finds_iff hopen ?_
    simpa [fits, hopen] using h
  next hclosed =>
    have hends : p.openStart = false ∧ p.openEnd = false := by
      simpa [isOpen] using hclosed
    simp [Describes, hends.1, hends.2]

end Pattern

end Tabular
