import Tabular.Proofs.CodePoints
import Tabular.Query.Pattern

/-!
# Patterns and their written forms

A text is read as a pattern by cutting a star off in front and then, from what is left, one
behind. What is found in this way is said by `Cut.Of`: nothing is lost, and an end from which
nothing was cut showed no star. A list has one such cut (`Cut.ends_eq_iff`). A text is a
pattern iff its cut has no star inside, that is, iff its stars stand at its ends
(`exists_ofText?_iff`); the open ends and the literal of the pattern are then the cut
(`ofText?_eq_some_iff`).

The written form of a pattern is cut back into the pattern, unless its literal has a star or
the whole form is one star, which is cut off in front and not behind (`of_text_iff`). But for
these patterns reading and writing undo each other (`text_exact`).

The byte of a star stands in the encoding of no other character, so cutting bytes off the
encoding of a text is cutting its characters (`Cut.Of.encode`).
-/

namespace Tabular

variable {α : Type}

/-! ## Cutting a mark off the ends -/

/-- A list whose ends were looked at for a mark: whether it was found in front, what is left
between the ends, and whether it was found behind. -/
structure Cut (α : Type) where
  front : Bool
  inside : List α
  back : Bool
  deriving DecidableEq, Repr

namespace Cut

/-- The mark, at an end where it was found. -/
def found (mark : α) (there : Bool) : List α := if there then [mark] else []

/-- Cuts the mark off in front and then, from what is left, behind. -/
def ends [BEq α] (mark : α) (l : List α) : Cut α :=
  let front := l.head? == some mark
  let rest := if front then l.tail else l
  let back := rest.getLast? == some mark
  ⟨front, if back then rest.dropLast else rest, back⟩

/-- The cut of a list, in which a mark that was found in front is not found again behind. -/
structure Of (c : Cut α) (mark : α) (l : List α) : Prop where
  /-- Nothing is lost. -/
  whole : l = found mark c.front ++ (c.inside ++ found mark c.back)
  front_closed : c.front = false → l.head? ≠ some mark
  back_closed : c.back = false → c.inside.getLast? ≠ some mark

theorem length_found (mark : α) (there : Bool) : (found mark there).length = there.toNat := by
  cases there <;> rfl

variable [BEq α] [LawfulBEq α] {mark : α} {l : List α} {c : Cut α}

theorem ends_of (mark : α) (l : List α) : (ends mark l).Of mark l := by
  let front := l.head? == some mark
  let rest := if front then l.tail else l
  let back := rest.getLast? == some mark
  let inside := if back then rest.dropLast else rest
  have hfront : l = found mark front ++ rest := by
    cases h : front with
    | false => simp [rest, h, found]
    | true =>
      have hhead : l.head? = some mark := by simpa [front] using h
      obtain ⟨t, ht⟩ := List.head?_eq_some_iff.mp hhead
      simp [rest, h, found, ht]
  have hback : rest = inside ++ found mark back := by
    cases h : back with
    | false => simp [inside, h, found]
    | true =>
      have hlast : rest.getLast? = some mark := by simpa [back] using h
      obtain ⟨t, ht⟩ := List.getLast?_eq_some_iff.mp hlast
      simp [inside, h, found, ht]
  constructor
  · show l = found mark front ++ (inside ++ found mark back)
    rw [← hback]
    exact hfront
  · intro h
    simpa [front] using (show front = false from h)
  · intro h
    have hinside : inside = rest := by simp [inside, show back = false from h]
    show inside.getLast? ≠ some mark
    rw [hinside]
    simpa [back] using (show back = false from h)

/-- A list has one cut. -/
theorem ends_eq_iff : ends mark l = c ↔ c.Of mark l := by
  constructor
  · rintro rfl
    exact ends_of mark l
  · intro h
    obtain ⟨front, inside, back⟩ := c
    have hfront : (l.head? == some mark) = front := by
      cases front with
      | false => simpa using h.front_closed rfl
      | true => simp [h.whole, found]
    have hrest : (if front then l.tail else l) = inside ++ found mark back := by
      rw [h.whole]
      cases front <;> rfl
    have hback : ((inside ++ found mark back).getLast? == some mark) = back := by
      cases back with
      | false => simpa [found] using h.back_closed rfl
      | true => simp [found]
    unfold ends
    simp only [hfront, hrest, hback]
    cases back <;> simp [found]

end Cut

/-! ## Cutting bytes -/

/-- What the cut of a text leaves of its bytes. -/
def Cut.encode (c : Cut Char) : Cut UInt8 :=
  ⟨c.front, c.inside.flatMap String.utf8EncodeChar, c.back⟩

namespace Text

/-- The byte of a star stands in the encoding of a star only. -/
theorem star_mem_utf8EncodeChar_iff {c : Char} :
    (0x2A : UInt8) ∈ String.utf8EncodeChar c ↔ c = '*' := by
  have hbyte : (0x2A : UInt8) = UInt8.ofNat 0x2A := rfl
  rw [hbyte, ofNat_mem_utf8EncodeChar_iff (by decide)]
  constructor
  · intro h
    exact Char.ext (UInt32.toNat_inj.mp h)
  · rintro rfl
    rfl

theorem star_mem_flatMap_iff {cs : List Char} :
    (0x2A : UInt8) ∈ cs.flatMap String.utf8EncodeChar ↔ '*' ∈ cs := by
  simp [List.mem_flatMap, star_mem_utf8EncodeChar_iff]

/-- A text that begins with the byte of a star begins with a star. -/
theorem head?_of_head?_flatMap {cs : List Char}
    (h : (cs.flatMap String.utf8EncodeChar).head? = some 0x2A) : cs.head? = some '*' := by
  cases cs with
  | nil => cases h
  | cons c cs =>
    obtain ⟨b, bs, hb⟩ := List.exists_cons_of_ne_nil (String.utf8EncodeChar_ne_nil (c := c))
    rw [List.flatMap_cons, hb, List.cons_append, List.head?_cons] at h
    have hstar : (0x2A : UInt8) ∈ String.utf8EncodeChar c := by
      rw [hb, Option.some.inj h]
      exact List.mem_cons_self
    rw [List.head?_cons, star_mem_utf8EncodeChar_iff.mp hstar]

/-- A text that ends with the byte of a star ends with a star. -/
theorem getLast?_of_getLast?_flatMap {cs : List Char}
    (h : (cs.flatMap String.utf8EncodeChar).getLast? = some 0x2A) : cs.getLast? = some '*' := by
  rcases List.eq_nil_or_concat cs with rfl | ⟨cs, c, rfl⟩
  · cases h
  · obtain ⟨b, hb⟩ := Option.ne_none_iff_exists'.mp
      (mt List.getLast?_eq_none_iff.mp (String.utf8EncodeChar_ne_nil (c := c)))
    rw [List.concat_eq_append, List.flatMap_append, List.flatMap_singleton, List.getLast?_append,
      hb, Option.some_or] at h
    have hstar : (0x2A : UInt8) ∈ String.utf8EncodeChar c := by
      rw [← Option.some.inj h]
      exact List.mem_of_getLast? hb
    rw [List.concat_eq_append, List.getLast?_concat, star_mem_utf8EncodeChar_iff.mp hstar]

end Text

/-- Cutting the bytes of stars off the encoding of a text is cutting stars off the text. -/
theorem Cut.Of.encode {c : Cut Char} {cs : List Char} (h : c.Of '*' cs) :
    c.encode.Of 0x2A (cs.flatMap String.utf8EncodeChar) where
  whole := by
    have hfound : ∀ there, (found '*' there).flatMap String.utf8EncodeChar =
        found (0x2A : UInt8) there := by decide
    rw [h.whole, List.flatMap_append, List.flatMap_append, hfound, hfound]
    rfl
  front_closed hfront hhead := h.front_closed hfront (Text.head?_of_head?_flatMap hhead)
  back_closed hback hlast := h.back_closed hback (Text.getLast?_of_getLast?_flatMap hlast)

/-! ## Reading patterns -/

/-- Every star is the first or the last character. -/
def StarsAtEnds (raw : List Char) : Prop :=
  ∀ i, raw[i]? = some '*' → i = 0 ∨ i + 1 = raw.length

/-- What is left between the ends has a star just if the text has one inside. -/
theorem Cut.Of.starsAtEnds_iff {c : Cut Char} {raw : List Char} (h : c.Of '*' raw) :
    StarsAtEnds raw ↔ '*' ∉ c.inside := by
  have hraw := h.whole
  have hlength : raw.length = c.front.toNat + (c.inside.length + c.back.toNat) := by
    rw [hraw, List.length_append, List.length_append, length_found, length_found]
  constructor
  · intro hends hmem
    obtain ⟨j, hj, hstar⟩ := List.mem_iff_getElem.mp hmem
    have hplace : raw[c.front.toNat + j]? = some '*' := by
      rw [hraw, ← length_found '*', List.getElem?_append_right (by omega),
        Nat.add_sub_cancel_left, List.getElem?_append_left hj, List.getElem?_eq_getElem hj, hstar]
    rcases hends _ hplace with hfirst | hlast
    · -- At the start stands a star that was not taken off.
      have hclosed : c.front = false := Bool.toNat_eq_zero.mp (by omega)
      apply h.front_closed hclosed
      rw [List.head?_eq_getElem?, ← hfirst]
      exact hplace
    · -- At the end likewise.
      have hclosed : c.back = false := Bool.toNat_eq_zero.mp (by omega)
      apply h.back_closed hclosed
      have hj' : c.inside.length - 1 = j := by omega
      rw [List.getLast?_eq_getElem?, hj', List.getElem?_eq_getElem hj, hstar]
  · intro hinside i hi
    have hi' : i < raw.length := (List.getElem?_eq_some_iff.mp hi).1
    have hone : c.front.toNat ≤ 1 := Bool.toNat_le c.front
    have hone' : c.back.toNat ≤ 1 := Bool.toNat_le c.back
    by_cases hfront : i < c.front.toNat
    · left
      omega
    by_cases hbetween : i - c.front.toNat < c.inside.length
    · rw [hraw, List.getElem?_append_right (by rw [length_found]; omega), length_found,
        List.getElem?_append_left hbetween] at hi
      exact absurd (List.mem_of_getElem? hi) hinside
    · right
      omega

namespace Pattern

/-- The ends of a pattern and what stands between them. -/
def toCut (p : Pattern) : Cut Char := ⟨p.openStart, p.literal.toList, p.openEnd⟩

theorem ofText?_eq (raw : String) :
    ofText? raw = if '*' ∈ (Cut.ends '*' raw.toList).inside then none
      else some ⟨(Cut.ends '*' raw.toList).front,
        String.ofList (Cut.ends '*' raw.toList).inside, (Cut.ends '*' raw.toList).back⟩ := by
  show (if List.contains _ '*' then none else some _) = _
  simp only [List.contains_iff_mem]
  rfl

/-- A text is read as a pattern by its cut. -/
theorem ofText?_eq_some_iff {raw : String} {p : Pattern} :
    ofText? raw = some p ↔ p.toCut.Of '*' raw.toList ∧ '*' ∉ p.literal.toList := by
  obtain ⟨openStart, literal, openEnd⟩ := p
  rw [ofText?_eq, ← Cut.ends_eq_iff]
  generalize Cut.ends '*' raw.toList = c
  obtain ⟨front, inside, back⟩ := c
  by_cases hstar : '*' ∈ inside
  · simp only [hstar, if_true, reduceCtorEq, false_iff]
    rintro ⟨hcut, hplain⟩
    cases hcut
    exact hplain hstar
  · simp only [hstar, if_false]
    constructor
    · intro h
      cases h
      exact ⟨by simp [toCut], by simpa using hstar⟩
    · rintro ⟨hcut, -⟩
      cases hcut
      simp

/-- A text is a pattern iff its stars stand at its ends. -/
theorem exists_ofText?_iff {raw : String} :
    (∃ p, ofText? raw = some p) ↔ StarsAtEnds raw.toList := by
  rw [(Cut.ends_of '*' raw.toList).starsAtEnds_iff, ofText?_eq]
  by_cases hstar : '*' ∈ (Cut.ends '*' raw.toList).inside <;> simp [hstar]

/-! ## Writing patterns -/

/-- What a pattern must be to be read back from its written form. -/
structure Legible (p : Pattern) : Prop where
  /-- A star in the literal has no meaning, or is taken for an open end. -/
  plain : '*' ∉ p.literal.toList
  /-- A star that is the whole form is taken for an open start. -/
  not_lone : p ≠ ⟨false, "", true⟩

theorem toList_text (p : Pattern) :
    p.text.toList = star p.openStart ++ (p.literal.toList ++ star p.openEnd) := by
  rw [text, String.toList_ofList, List.append_assoc]

/-- A pattern is written as its text, and its literal has no stars. -/
theorem text_of_ofText? {raw : String} {p : Pattern} (h : ofText? raw = some p) :
    raw = p.text ∧ '*' ∉ p.literal.toList := by
  obtain ⟨hcut, hplain⟩ := ofText?_eq_some_iff.mp h
  refine ⟨?_, hplain⟩
  rw [← String.toList_inj, toList_text]
  exact hcut.whole

/-- The written form is cut where the pattern is open, unless it is one star at the end. -/
theorem of_text_iff {p : Pattern} (hplain : '*' ∉ p.literal.toList) :
    p.toCut.Of '*' p.text.toList ↔ p ≠ ⟨false, "", true⟩ := by
  constructor
  · rintro h rfl
    exact h.front_closed rfl rfl
  · intro hlone
    obtain ⟨openStart, literal, openEnd⟩ := p
    refine ⟨toList_text _, ?_, fun _ hlast => hplain (List.mem_of_getLast? hlast)⟩
    rintro (rfl : openStart = false) hhead
    have hwhole : (⟨false, literal, openEnd⟩ : Pattern).text.toList =
        literal.toList ++ star openEnd := toList_text _
    rw [hwhole] at hhead
    -- In front stands the literal, or behind an empty one the star of the other end.
    cases hliteral : literal.toList with
    | cons c rest =>
      rw [hliteral, List.cons_append, List.head?_cons] at hhead
      apply hplain
      show '*' ∈ literal.toList
      rw [hliteral, Option.some.inj hhead]
      exact List.mem_cons_self
    | nil =>
      obtain rfl := String.toList_eq_nil_iff.mp hliteral
      cases openEnd with
      | false => cases hhead
      | true => exact hlone rfl

/-- A pattern is read back from its written form iff it is legible. -/
theorem ofText?_text_iff {p : Pattern} : ofText? p.text = some p ↔ p.Legible := by
  rw [ofText?_eq_some_iff]
  constructor
  · rintro ⟨hcut, hplain⟩
    exact ⟨hplain, (of_text_iff hplain).mp hcut⟩
  · intro h
    exact ⟨(of_text_iff h.plain).mpr h.not_lone, h.plain⟩

/-- What is read is legible. -/
theorem legible_of_ofText? {raw : String} {p : Pattern} (h : ofText? raw = some p) :
    p.Legible := by
  obtain ⟨rfl, -⟩ := text_of_ofText? h
  exact ofText?_text_iff.mp h

theorem openStart_iff {raw : String} {p : Pattern} (h : ofText? raw = some p) :
    p.openStart = true ↔ raw.toList.head? = some '*' := by
  have hcut := (ofText?_eq_some_iff.mp h).1
  constructor
  · intro hopen
    rw [hcut.whole, show p.toCut.front = true from hopen]
    rfl
  · intro hhead
    by_contra hclosed
    exact hcut.front_closed (Bool.eq_false_iff.mpr hclosed) hhead

/-- The star behind is another one than the star in front. -/
theorem openEnd_iff {raw : String} {p : Pattern} (h : ofText? raw = some p) :
    p.openEnd = true ↔ raw ≠ "*" ∧ raw.toList.getLast? = some '*' := by
  obtain ⟨rfl, hplain⟩ := text_of_ofText? h
  obtain ⟨openStart, literal, openEnd⟩ := p
  constructor
  · rintro (rfl : openEnd = true)
    constructor
    · intro hlone
      have hread : ofText? "*" = some ⟨true, "", false⟩ := by decide +kernel
      rw [hlone, hread] at h
      cases h
    · rw [toList_text, ← List.append_assoc]
      exact List.getLast?_concat
  · rintro ⟨hlone, hlast⟩
    cases openEnd with
    | true => rfl
    | false =>
      have hwhole : (⟨openStart, literal, false⟩ : Pattern).text.toList =
          star openStart ++ literal.toList := by
        rw [toList_text]
        exact congrArg _ (List.append_nil _)
      rw [hwhole, List.getLast?_append] at hlast
      -- Behind stands the literal, or in front of an empty one the star of the other end.
      cases hliteral : literal.toList.getLast? with
      | some c =>
        rw [hliteral, Option.some_or] at hlast
        rw [Option.some.inj hlast] at hliteral
        exact absurd (List.mem_of_getLast? hliteral) hplain
      | none =>
        obtain rfl := String.toList_eq_nil_iff.mp (List.getLast?_eq_none_iff.mp hliteral)
        cases openStart with
        | false => cases hlast
        | true => exact absurd rfl hlone

/-- Reads the bytes of a text as a pattern: its open ends and the bytes of its literal. -/
def ofBytes? (raw : List UInt8) : Option (Cut UInt8) :=
  let cut := Cut.ends 0x2A raw
  if cut.inside.contains 0x2A then none else some cut

/-- Reading the bytes of a text finds the bytes of what is read. -/
theorem ofBytes?_bytes (raw : String) : ofBytes? (Text.bytes raw) =
    (ofText? raw).map fun p => ⟨p.openStart, Text.bytes p.literal, p.openEnd⟩ := by
  have hcut := (Cut.ends_of '*' raw.toList).encode
  rw [← Text.bytes_eq_flatMap, ← Cut.ends_eq_iff] at hcut
  rw [ofText?_eq, ofBytes?, hcut]
  simp only [Cut.encode, List.contains_iff_mem, Text.star_mem_flatMap_iff]
  by_cases hstar : '*' ∈ (Cut.ends '*' raw.toList).inside
  · simp [hstar]
  · simp [hstar, Text.bytes_eq_flatMap]

/-- **Reading and writing patterns.** What is read is written as it stood. A written pattern is
read back iff its literal has no star and it is not the empty literal open at the end only,
whose star is read as an open start. So no two texts are read as one pattern, and just these
patterns are read. A star in front makes an open start, and a star behind an open end unless it
is the one in front; up to two characters are always a pattern. The bytes of a text are cut
like its characters. -/
theorem text_exact :
    (∀ raw p, ofText? raw = some p → p.text = raw) ∧
    (∀ p, ofText? p.text = some p ↔ p.Legible) ∧
    ((⟨false, "", true⟩ : Pattern).text = "*" ∧ ofText? "*" = some ⟨true, "", false⟩) ∧
    (∀ raw raw' p, ofText? raw = some p → ofText? raw' = some p → raw = raw') ∧
    (∀ p, (∃ raw, ofText? raw = some p) ↔ p.Legible) ∧
    (∀ raw p, ofText? raw = some p →
      (p.openStart = true ↔ raw.toList.head? = some '*') ∧
      (p.openEnd = true ↔ raw ≠ "*" ∧ raw.toList.getLast? = some '*')) ∧
    (∀ raw, raw.toList.length ≤ 2 → ∃ p, ofText? raw = some p) ∧
    ∀ raw, ofBytes? (Text.bytes raw) =
      (ofText? raw).map fun p => ⟨p.openStart, Text.bytes p.literal, p.openEnd⟩ := by
  have hwritten : ∀ raw p, ofText? raw = some p → p.text = raw := by
    intro raw p h
    exact (text_of_ofText? h).1.symm
  refine ⟨hwritten, fun p => ofText?_text_iff, ⟨rfl, by decide +kernel⟩, ?_, ?_, ?_, ?_,
    ofBytes?_bytes⟩
  · intro raw raw' p h h'
    rw [← hwritten raw p h, hwritten raw' p h']
  · intro p
    constructor
    · rintro ⟨raw, h⟩
      exact legible_of_ofText? h
    · intro h
      exact ⟨p.text, ofText?_text_iff.mpr h⟩
  · intro raw p h
    exact ⟨openStart_iff h, openEnd_iff h⟩
  · intro raw hshort
    rw [exists_ofText?_iff]
    intro i hi
    have hi' : i < raw.toList.length := (List.getElem?_eq_some_iff.mp hi).1
    omega

/-- Texts around a character of two bytes, and what they are read as. -/
def accentedTexts : List (String × Pattern) :=
  [("", ⟨false, "", false⟩), ("é", ⟨false, "é", false⟩), ("é*", ⟨false, "é", true⟩),
    ("*", ⟨true, "", false⟩), ("*é", ⟨true, "é", false⟩), ("**", ⟨true, "", true⟩),
    ("*é*", ⟨true, "é", true⟩)]

/-- Stars are cut off the character and not bytes of it, and one star is cut off once. -/
theorem accentedTexts_exact :
    (∀ e ∈ accentedTexts, ofText? e.1 = some e.2 ∧ e.2.text = e.1 ∧ e.2.Legible ∧
      ∀ raw, ofText? raw = some e.2 → raw = e.1) ∧
    ("éé".toList.length ≤ 2 ∧ ∃ p, ofText? "éé" = some p ∧ p.openEnd = false) ∧
    ofBytes? (Text.bytes "*é*") = some ⟨true, [0xC3, 0xA9], true⟩ ∧
    ofText? "***" = none ∧ ofText? "é*é" = none := by
  obtain ⟨hwritten, hlegible, -, hunique, -, hends, hshort, hbytes⟩ := text_exact
  have hread : ∀ e ∈ accentedTexts, ofText? e.1 = some e.2 := by decide +kernel
  refine ⟨?_, ?_, ?_, by decide +kernel, by decide +kernel⟩
  · intro e he
    have hp := hread e he
    have htext := hwritten _ _ hp
    refine ⟨hp, htext, (hlegible _).mp ?_, ?_⟩
    · rw [htext]
      exact hp
    · intro raw h
      exact hunique _ _ _ h hp
  · have hlength : "éé".toList.length ≤ 2 := by decide +kernel
    obtain ⟨p, hp⟩ := hshort _ hlength
    refine ⟨hlength, p, hp, Bool.eq_false_iff.mpr ?_⟩
    rw [ne_eq, (hends _ p hp).2]
    decide +kernel
  · rw [hbytes, hread ("*é*", ⟨true, "é", true⟩) (by simp [accentedTexts])]
    decide +kernel

end Pattern

end Tabular
