import Mathlib.Data.List.Basic
import Tabular.Proofs.NumberGrammar

/-!
# The text of a number reads back

A finite number is written with a point among its digits, with zeros to fill up to the
point on either side of them, or with an exponent. Whichever it is, the digits and the
place of the point say the same value (`Scientific.decimal`), so what is read is the
number that was written (`Number.takes_text`), bit by bit.

What follows a number must not go on with it: it is *closed* off from the number.
-/

namespace Tabular.Json

namespace Reader

/-! ## Digits -/

theorem digitsValue_eq (start : Nat) (ds : List Char) :
    digitsValue start ds = Nat.ofDigitChars 10 ds start := by
  rw [Nat.ofDigitChars_eq_foldl]
  rfl

theorem digitsValue_append_zeros (ds : List Char) (z : Nat) :
    digitsValue 0 (ds ++ List.replicate z '0') = digitsValue 0 ds * 10 ^ z := by
  rw [digitsValue_eq, digitsValue_eq, Nat.ofDigitChars_append, Nat.ofDigitChars_replicate_zero,
    Nat.mul_comm]

theorem digitsValue_zeros_append (z : Nat) (ds : List Char) :
    digitsValue 0 (List.replicate z '0' ++ ds) = digitsValue 0 ds := by
  rw [digitsValue_eq, digitsValue_eq, Nat.ofDigitChars_append, Nat.ofDigitChars_replicate_zero,
    Nat.mul_zero]

theorem digitsValue_toDigits (n : Nat) : digitsValue 0 (Nat.toDigits 10 n) = n := by
  rw [digitsValue_eq, Nat.ofDigitChars_ten_toDigits]

theorem digits_toDigits (n : Nat) : Digits (Nat.toDigits 10 n) := by
  intro c hc
  exact Nat.isDigit_of_mem_toDigits (by decide) (by decide) hc

theorem digits_zeros (z : Nat) : Digits (List.replicate z '0') := by
  intro c hc
  rw [(List.mem_replicate.mp hc).2]
  rfl

theorem Digits.append {ds es : List Char} (hds : Digits ds) (hes : Digits es) :
    Digits (ds ++ es) := by
  intro c hc
  rcases List.mem_append.mp hc with hc | hc
  · exact hds c hc
  · exact hes c hc

/-- The digits of a positive number start with one that is not zero. -/
theorem toDigits_leading {n : Nat} (hn : n ≠ 0) :
    ∃ c ds, Nat.toDigits 10 n = c :: ds ∧ c ≠ '0' := by
  -- On the number: all digits but the last are those of its tenth part.
  induction n using Nat.strongRecOn with
  | ind n ih =>
    by_cases hsmall : n < 10
    · refine ⟨n.digitChar, [], Nat.toDigits_of_lt_base hsmall, ?_⟩
      intro hzero
      exact hn (Nat.digitChar_eq_zero.mp hzero)
    · obtain ⟨c, ds, hds, hc⟩ := ih (n / 10) (by omega) (by omega)
      refine ⟨c, ds ++ [(n % 10).digitChar], ?_, hc⟩
      rw [Nat.toDigits_of_base_le (by decide) (by omega), hds, List.cons_append]

/-! ## Numerals -/

/-- A numeral of the magnitude of a finite number is read as that number. -/
theorem Numeral.number_eq {n : Numeral} {x : Binary64} (hx : x.isFinite = true)
    (hneg : n.negative = x.negative) (hmag : n.decimal.magnitude = x.magnitude) :
    n.number = some (.real x hx) := by
  have heq : Binary64.ofMagnitude n.negative n.decimal.magnitude = x := by
    rw [hneg, hmag, Binary64.ofMagnitude_self]
  simp only [Numeral.number, heq]
  rw [dif_pos hx]

/-- An exponent as it is written is read behind its letter. -/
theorem exponent_text (mantissa : Numeral) {e : Int} {rest : List Char} {x : Number}
    (hrest : Closed rest)
    (hx : ({ mantissa with exponent := e } : Numeral).number = some x) :
    Continues (exponent mantissa)
      ((if e < 0 then '-' else '+') :: (Nat.toDigits 10 e.natAbs ++ rest)) x rest := by
  have hds := digits_toDigits e.natAbs
  obtain ⟨d, ds, hcons⟩ := List.exists_cons_of_ne_nil
    (Nat.toDigits_ne_nil (n := e.natAbs) (b := 10))
  have hd : d.isDigit = true := hds d (hcons ▸ List.mem_cons_self)
  refine continues_exponent_iff.mpr ⟨[if e < 0 then '-' else '+'],
    Nat.toDigits 10 e.natAbs ++ rest, ?_, rfl, ⟨d, ds ++ rest, by rw [hcons]; rfl, hd⟩,
    afterDigits_append hds hrest.noDigit, ?_⟩
  · split
    · exact .inr (.inl rfl)
    · exact .inr (.inr rfl)
  · rw [digits_append hds hrest.noDigit, digitsValue_toDigits, ← hx]
    congr 2
    by_cases he : e < 0
    · rw [if_pos he, if_pos rfl]
      omega
    · rw [if_neg he, if_neg (by decide)]
      omega

theorem Closed.not_letter {rest : List Char} (h : Closed rest) :
    ∀ c ∈ rest.head?, ¬ ExponentLetter c := by
  rintro c hc (rfl | rfl)
  · exact (h _ hc).2.2.1 rfl
  · exact (h _ hc).2.2.2 rfl

/-- A whole part goes on with what follows it. -/
theorem Ending.takes {negative : Bool} {whole s rest : List Char} {x : Number}
    (h : Ending negative whole s x rest) (hwhole : Whole whole) (hs : NoDigit s) :
    Takes (unsignedNumber negative) (whole ++ s) x rest :=
  takes_unsignedNumber_iff.mpr ⟨whole, s, hwhole, rfl, hs, h⟩

end Reader

/-! ## The text of a number -/

namespace Number

open Reader

/-- The value of digits and the place of the point among them. -/
def Scientific.decimal (s : Scientific) : Decimal :=
  ⟨digitsValue 0 s.digits, s.point - s.digits.length⟩

/-- The digits that are written: at least one, and the first is not zero. -/
structure Scientific.Proper (s : Scientific) : Prop where
  digits : Digits s.digits
  leading : ∃ c t, s.digits = c :: t ∧ c ≠ '0'

/-- The digits of a numeral are those that are written and closing zeros, which the
point counts. -/
theorem Scientific.ofDecimal_digits (d : Decimal) :
    ∃ z, Nat.toDigits 10 d.coefficient =
        (Scientific.ofDecimal d).digits ++ List.replicate z '0' ∧
      (Scientific.ofDecimal d).point = (Scientific.ofDecimal d).digits.length + z + d.exponent := by
  have hdigits : (Scientific.ofDecimal d).digits =
      ((Nat.toDigits 10 d.coefficient).reverse.dropWhile (· = '0')).reverse := rfl
  have hpoint : (Scientific.ofDecimal d).point =
      (Nat.toDigits 10 d.coefficient).length + d.exponent := rfl
  rw [hdigits, hpoint]
  generalize Nat.toDigits 10 d.coefficient = ds
  have hzeros : ∀ c ∈ ds.reverse.takeWhile (· = '0'), c = '0' := by
    intro c hc
    simpa using List.all_eq_true.mp List.all_takeWhile c hc
  have hsplit : ds = (ds.reverse.dropWhile (· = '0')).reverse ++
      List.replicate (ds.reverse.takeWhile (· = '0')).length '0' := by
    calc ds = (ds.reverse.takeWhile (· = '0') ++ ds.reverse.dropWhile (· = '0')).reverse := by
          rw [List.takeWhile_append_dropWhile, List.reverse_reverse]
      _ = _ := by
          rw [List.reverse_append, List.eq_replicate_of_mem hzeros, List.reverse_replicate,
            List.length_replicate]
  have hlength := congrArg List.length hsplit
  rw [List.length_append, List.length_replicate] at hlength
  refine ⟨_, hsplit, ?_⟩
  omega

variable {d : Decimal} {s : Scientific}

theorem Scientific.proper_ofDecimal (hd : d.coefficient ≠ 0) :
    (Scientific.ofDecimal d).Proper := by
  obtain ⟨z, hz, -⟩ := Scientific.ofDecimal_digits d
  obtain ⟨c, t, hcons, hc⟩ := toDigits_leading hd
  refine ⟨?_, ?_⟩
  · intro c hc
    apply digits_toDigits d.coefficient
    rw [hz]
    exact List.mem_append_left _ hc
  · rw [hcons] at hz
    cases hfront : (Scientific.ofDecimal d).digits with
    | nil =>
      -- All digits would be zeros, and the first is none.
      rw [hfront, List.nil_append] at hz
      have hmem : c ∈ List.replicate z '0' := hz ▸ List.mem_cons_self
      exact absurd (List.mem_replicate.mp hmem).2 hc
    | cons b u =>
      rw [hfront, List.cons_append] at hz
      exact ⟨b, u, rfl, (List.cons.inj hz).1 ▸ hc⟩

/-- The digits and the place of the point that are written have the value of the numeral. -/
theorem Scientific.magnitude_ofDecimal (d : Decimal) :
    (Scientific.ofDecimal d).decimal.magnitude = d.magnitude := by
  obtain ⟨z, hz, hpoint⟩ := Scientific.ofDecimal_digits d
  have hvalue : digitsValue 0 (Scientific.ofDecimal d).digits * 10 ^ z = d.coefficient := by
    rw [← digitsValue_append_zeros, ← hz, digitsValue_toDigits]
  have hexp : (Scientific.ofDecimal d).point - (Scientific.ofDecimal d).digits.length =
      d.exponent + z := by
    omega
  rw [Scientific.decimal, hexp, ← Decimal.magnitude_mul_ten_pow, hvalue]

/-! ### The arrangements of the digits -/

section Arrangements

variable {x : Binary64} {rest : List Char}

/-- Digits with a point among them are read as the value that `s` has, up to `z` zeros
that they end in. -/
theorem takes_point {whole places : List Char} {z : Nat} (hwhole : Whole whole)
    (hne : places ≠ []) (hplaces : Digits places) (hrest : Closed rest)
    (hvalue : digitsValue 0 (whole ++ places) = digitsValue 0 s.digits * 10 ^ z)
    (hpoint : (0 : Int) - places.length + z = s.point - s.digits.length)
    (hx : x.isFinite = true) (hmag : s.decimal.magnitude = x.magnitude) :
    Takes (unsignedNumber x.negative) (whole ++ '.' :: (places ++ rest)) (.real x hx) rest := by
  refine Ending.takes (.point hne hplaces hrest.noDigit hrest.not_letter ?_) hwhole (.cons rfl _)
  apply Numeral.number_eq hx rfl
  rw [← hmag]
  show Decimal.magnitude ⟨digitsValue 0 (whole ++ places), 0 - places.length⟩ = _
  rw [hvalue, Decimal.magnitude_mul_ten_pow, hpoint]
  rfl

/-- All digits stand in front of the point, with zeros up to it. -/
theorem takes_filled (hs : s.Proper) (hrest : Closed rest) {z : Nat}
    (hpoint : s.point = s.digits.length + z)
    (hx : x.isFinite = true) (hmag : s.decimal.magnitude = x.magnitude) :
    Takes (unsignedNumber x.negative)
      (s.digits ++ List.replicate z '0' ++ '.' :: (['0'] ++ rest)) (.real x hx) rest := by
  obtain ⟨c, t, hcons, hc⟩ := hs.leading
  have hwhole : Whole (s.digits ++ List.replicate z '0') :=
    .inr ⟨hs.digits.append (digits_zeros z), c, t ++ List.replicate z '0',
      by rw [hcons, List.cons_append], hc⟩
  have hzero : Digits ['0'] := digits_zeros 1
  apply takes_point (z := z + 1) hwhole (by decide) hzero hrest _ _ hx hmag
  · rw [← digitsValue_append_zeros, List.replicate_succ', List.append_assoc]
  · rw [List.length_singleton]
    omega

/-- The point stands among the digits. -/
theorem takes_inside (hs : s.Proper) (hrest : Closed rest) {k : Nat}
    (hk : 0 < k) (hlt : k < s.digits.length) (hpoint : s.point = k)
    (hx : x.isFinite = true) (hmag : s.decimal.magnitude = x.magnitude) :
    Takes (unsignedNumber x.negative)
      (s.digits.take k ++ '.' :: (s.digits.drop k ++ rest)) (.real x hx) rest := by
  obtain ⟨c, t, hcons, hc⟩ := hs.leading
  have hwhole : Whole (s.digits.take k) := by
    refine .inr ⟨fun d hd => hs.digits d (List.mem_of_mem_take hd), c, t.take (k - 1), ?_, hc⟩
    rw [hcons, List.take_cons hk]
  have hplaces : Digits (s.digits.drop k) := fun d hd => hs.digits d (List.mem_of_mem_drop hd)
  have hne : s.digits.drop k ≠ [] := by
    rw [ne_eq, List.drop_eq_nil_iff]
    omega
  apply takes_point (z := 0) hwhole hne hplaces hrest _ _ hx hmag
  · rw [List.take_append_drop, Nat.pow_zero, Nat.mul_one]
  · rw [List.length_drop]
    omega

/-- Zeros stand between the point and the digits. -/
theorem takes_behind (hs : s.Proper) (hrest : Closed rest) {z : Nat} (hpoint : s.point = -z)
    (hx : x.isFinite = true) (hmag : s.decimal.magnitude = x.magnitude) :
    Takes (unsignedNumber x.negative)
      (['0'] ++ '.' :: (List.replicate z '0' ++ s.digits ++ rest)) (.real x hx) rest := by
  obtain ⟨c, t, hcons, -⟩ := hs.leading
  have hne : List.replicate z '0' ++ s.digits ≠ [] := by
    rw [hcons]
    simp
  apply takes_point (z := 0) (.inl rfl) hne ((digits_zeros z).append hs.digits) hrest _ _ hx hmag
  · show digitsValue 0 (List.replicate (z + 1) '0' ++ s.digits) = _
    rw [digitsValue_zeros_append, Nat.pow_zero, Nat.mul_one]
  · rw [List.length_append, List.length_replicate]
    omega

/-- The point stands behind the first digit, and an exponent behind the last. -/
theorem takes_scaled (hs : s.Proper) (hrest : Closed rest)
    (hx : x.isFinite = true) (hmag : s.decimal.magnitude = x.magnitude) :
    Takes (unsignedNumber x.negative)
      (s.digits.take 1 ++ ((if s.digits.length ≤ 1 then [] else '.' :: s.digits.drop 1) ++
        (exponentText (s.point - 1) ++ rest))) (.real x hx) rest := by
  obtain ⟨c, t, hcons, hc⟩ := hs.leading
  have hds : Digits (c :: t) := hcons ▸ hs.digits
  have ht : Digits t := fun d hd => hds d (List.mem_cons_of_mem _ hd)
  have hwhole : Whole [c] :=
    .inr ⟨fun d hd => hds d (List.mem_cons.mpr (.inl (List.mem_singleton.mp hd))), c, [], rfl, hc⟩
  have hexp : s.point - 1 - t.length = s.point - s.digits.length := by
    rw [hcons, List.length_cons]
    omega
  have hvalue : (Decimal.mk (digitsValue 0 (c :: t)) (s.point - 1 - t.length)).magnitude =
      x.magnitude := by
    rw [← hmag, hexp, ← hcons]
    rfl
  rw [hcons]
  cases t with
  | nil =>
    refine Ending.takes (.scaled (.inl rfl) (exponent_text _ hrest ?_)) hwhole (.cons rfl _)
    exact Numeral.number_eq hx rfl hvalue
  | cons d t =>
    refine Ending.takes (.pointScaled (List.cons_ne_nil d t) ht (.inl rfl)
      (exponent_text _ hrest ?_)) hwhole (.cons rfl _)
    exact Numeral.number_eq hx rfl hvalue

/-- Digits as they are written are read as the number whose magnitude they have. -/
theorem Scientific.takes_text (hs : s.Proper) (hrest : Closed rest)
    (hx : x.isFinite = true) (hmag : s.decimal.magnitude = x.magnitude) :
    Takes (unsignedNumber x.negative) (s.text ++ rest) (.real x hx) rest := by
  unfold Scientific.text
  split
  next h =>
    obtain ⟨k, hk⟩ : ∃ k : Nat, s.point = k := ⟨s.point.toNat, by omega⟩
    rw [hk, Int.toNat_natCast]
    by_cases hlong : s.digits.length ≤ k
    · have hpoint : s.point = s.digits.length + (k - s.digits.length : Nat) := by omega
      have := takes_filled hs hrest hpoint hx hmag
      simpa [List.take_of_length_le hlong, List.drop_of_length_le hlong] using this
    · have := takes_inside hs hrest (by omega) (by omega) hk hx hmag
      have hne : s.digits.drop k ≠ [] := by
        rw [ne_eq, List.drop_eq_nil_iff]
        exact hlong
      have hlen : k - (s.digits.take k).length = 0 := by
        rw [List.length_take]
        omega
      simp only [hlen, List.replicate_zero, List.append_nil, List.isEmpty_iff, hne, if_false]
      rw [List.append_assoc, List.cons_append]
      exact this
  split
  next h =>
    have hpoint : s.point = -((-s.point).toNat : Int) := by omega
    simpa using takes_behind hs hrest hpoint hx hmag
  next => simpa using takes_scaled hs hrest hx hmag

end Arrangements

/-! ### The number as a whole -/

/-- The digits of a finite magnitude, without its sign. -/
theorem takes_magnitudeText {x : Binary64} {rest : List Char} (hx : x.isFinite = true)
    (hrest : Closed rest) :
    Takes (unsignedNumber x.negative) (magnitudeText x.magnitude ++ rest) (.real x hx) rest := by
  have hread := Binary64.magnitude_shortest (of_decide_eq_true hx)
  by_cases hzero : x.magnitude = 0
  · have hplaces : Digits ['0'] := digits_zeros 1
    rw [magnitudeText, if_pos hzero]
    have hwhole : Whole ['0'] := .inl rfl
    show Takes _ (['0'] ++ '.' :: (['0'] ++ rest)) _ _
    refine Ending.takes (.point (List.cons_ne_nil _ _) hplaces hrest.noDigit hrest.not_letter ?_)
      hwhole (.cons rfl _)
    apply Numeral.number_eq hx rfl
    rw [hzero]
    exact Decimal.magnitude_of_coefficient_eq_zero rfl
  · have hcoefficient : (Binary64.shortest x.magnitude).coefficient ≠ 0 := by
      intro h
      rw [Decimal.magnitude_of_coefficient_eq_zero h] at hread
      exact hzero hread.symm
    rw [magnitudeText, if_neg hzero]
    apply Scientific.takes_text (Scientific.proper_ofDecimal hcoefficient) hrest hx
    rw [Scientific.magnitude_ofDecimal, hread]

/-- What is read as a number without a sign starts with a digit. -/
theorem isDigit_of_takes {negative : Bool} {text rest : List Char} {n : Number}
    (h : Takes (unsignedNumber negative) text n rest) :
    ∃ c t, text = c :: t ∧ c.isDigit = true := by
  obtain ⟨_, h⟩ := h
  cases text with
  | nil => cases h
  | cons c t =>
    refine ⟨c, t, rfl, ?_⟩
    by_contra hc
    have hzero : c ≠ '0' := by
      rintro rfl
      exact hc rfl
    simp only [unsignedNumber, if_neg hzero, if_neg hc] at h
    cases h

/-- **A finite number reads back**, bit by bit and with its sign. Its text starts with
the sign or a digit. -/
theorem takes_text {x : Binary64} {rest : List Char} (hx : x.isFinite = true)
    (hrest : Closed rest) :
    Takes Reader.number ((Number.real x hx).text ++ rest) (.real x hx) rest ∧
      ∃ c t, (Number.real x hx).text ++ rest = c :: t ∧ (c = '-' ∨ c.isDigit = true) := by
  have hread := takes_magnitudeText hx hrest
  obtain ⟨c, t, hcons, hc⟩ := isDigit_of_takes hread
  rw [text]
  cases hneg : x.negative with
  | true =>
    rw [hneg] at hread
    exact ⟨takes_number_minus.mpr hread, '-', _, rfl, .inl rfl⟩
  | false =>
    rw [hneg] at hread
    refine ⟨(takes_number_of_ne ?_).mpr hread, c, t, hcons, .inr hc⟩
    rintro r (hminus : magnitudeText x.magnitude ++ rest = '-' :: r)
    rw [hminus] at hcons
    cases hcons
    cases hc

end Number

end Tabular.Json
