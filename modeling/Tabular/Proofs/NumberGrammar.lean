import Tabular.Json.Reader
import Tabular.Proofs.DecimalValue
import Tabular.Proofs.Fallible

/-!
# What a number is read from

A number is a whole part and an ending: nothing, or a point with digits, or an exponent, or
both. Each reader of a part has one lemma that says what the part is read from
(`continues_exponent_iff`, `continues_fraction_iff`, `takes_unsignedNumber_iff`), and the
lemmas do not look beyond the first character that the number does not go on with. So what is
read as a number has a text of its own, which is read as the same number wherever it stands
(`takes_number_spelled`), and the number is finite.
-/

namespace Tabular.Json.Reader

/-- A reader takes a value off the front of a text and leaves the rest. -/
def Takes {α : Type} (r : Reader α) (text : List Char) (value : α) (rest : List Char) : Prop :=
  ∃ h, r text = .ok ⟨value, rest, h⟩

/-- What may stand behind a number: the end, or a character no number goes on with. -/
def Closed (rest : List Char) : Prop :=
  ∀ c ∈ rest.head?, c.isDigit = false ∧ c ≠ '.' ∧ c ≠ 'e' ∧ c ≠ 'E'

/-- A text that does not go on with a digit. -/
def NoDigit (s : List Char) : Prop := ∀ c ∈ s.head?, c.isDigit = false

theorem NoDigit.nil : NoDigit [] := by
  intro c hc
  cases hc

theorem NoDigit.cons {c : Char} (hc : c.isDigit = false) (s : List Char) : NoDigit (c :: s) := by
  intro d hd
  cases hd
  exact hc

theorem Closed.noDigit {rest : List Char} (h : Closed rest) : NoDigit rest :=
  fun c hc => (h c hc).1

/-- A row of digits. -/
def Digits (ds : List Char) : Prop := ∀ c ∈ ds, c.isDigit = true

/-! ## Digits -/

theorem digits_append {ds rest : List Char} (hds : Digits ds)
    (hrest : NoDigit rest) : digits (ds ++ rest) = ds := by
  rw [digits, List.takeWhile_append_of_pos hds]
  cases rest with
  | nil => simp
  | cons c rest => simp [hrest c rfl]

theorem afterDigits_append {ds rest : List Char} (hds : Digits ds)
    (hrest : NoDigit rest) : afterDigits (ds ++ rest) = rest := by
  rw [afterDigits, List.dropWhile_append_of_pos hds]
  cases rest with
  | nil => simp
  | cons c rest => simp [hrest c rfl]

theorem digits_digits (s : List Char) : Digits (digits s) := by
  intro c hc
  exact List.all_eq_true.mp List.all_takeWhile c hc

theorem noDigit_afterDigits (s : List Char) : NoDigit (afterDigits s) := by
  intro c hc
  have hnot := List.head?_dropWhile_not Char.isDigit s
  rw [show List.head? (List.dropWhile Char.isDigit s) = some c from hc] at hnot
  simpa using hnot

theorem digits_append_afterDigits (s : List Char) : digits s ++ afterDigits s = s :=
  List.takeWhile_append_dropWhile

theorem NoDigit.left {t rest : List Char} (h : NoDigit (t ++ rest)) : NoDigit t := by
  intro c hc
  exact h c (List.mem_head?_append_of_mem_head? hc)

theorem digits_of_digits {ds : List Char} (h : Digits ds) : digits ds = ds := by
  simpa using digits_append h NoDigit.nil

theorem afterDigits_of_digits {ds : List Char} (h : Digits ds) : afterDigits ds = [] := by
  simpa using afterDigits_append h NoDigit.nil

/-! ## Finite numbers -/

theorem Numeral.isFinite_of_number {n : Numeral} {x : Number} (h : n.number = some x) :
    x.toBinary64.isFinite = true := by
  unfold Numeral.number at h
  simp only at h
  split at h
  next hx =>
    cases h
    exact hx
  · cases h

theorem wholeNumber_finite {negative : Bool} {n : Nat} {x : Number}
    (h : wholeNumber negative n = some x) : x.toBinary64.isFinite = true := by
  unfold wholeNumber at h
  split at h
  · split at h
    · cases h
    · cases h
      exact Binary64.isFinite_ofInt (k := 64) (by decide) (by omega)
  · split at h
    · cases h
      exact Binary64.isFinite_ofInt (k := 64) (by decide) (by omega)
    · cases h

/-! ## Exponents -/

/-- What reads the end of a number goes on through the front of a text. -/

def Continues (reader : (s : List Char) → Except Failure
    { p : Number × List Char // p.2.length ≤ s.length }) (s : List Char) (x : Number)
    (rest : List Char) : Prop :=
  ∃ h, reader s = .ok ⟨(x, rest), h⟩

variable {m : Numeral} {negative : Bool} {whole s rest : List Char} {x : Number}

/-- A sign and digits say the exponent. -/
theorem exponent_signed (mantissa : Numeral) {sign : Char} {u : List Char} {x : Number}
    (hsign : sign = '-' ∨ sign = '+') (hu : ∃ d ds, u = d :: ds ∧ d.isDigit = true)
    (hx : ({ mantissa with exponent :=
      if sign = '-' then -(digitsValue 0 (digits u) : Int) else digitsValue 0 (digits u) } :
        Numeral).number = some x) :
    ∃ h, exponent mantissa (sign :: u) = .ok ⟨(x, afterDigits u), h⟩ := by
  obtain ⟨d, ds, rfl, hd⟩ := hu
  refine ⟨Nat.le_succ_of_le (length_dropWhile_le _ _), ?_⟩
  rcases hsign with rfl | rfl
  · simp only [if_true] at hx
    simp [exponent, hd, hx]
  · rw [if_neg (by decide)] at hx
    simp [exponent, hd, hx]

theorem continues_exponent_iff : Continues (exponent m) s x rest ↔
    ∃ sign u, (sign = [] ∨ sign = ['-'] ∨ sign = ['+']) ∧ s = sign ++ u ∧
      (∃ d ds, u = d :: ds ∧ d.isDigit = true) ∧ afterDigits u = rest ∧
      ({ m with exponent := if sign = ['-'] then -(digitsValue 0 (digits u) : Int)
        else digitsValue 0 (digits u) } : Numeral).number = some x := by
  constructor
  · rintro ⟨h, hok⟩
    unfold exponent at hok
    simp only at hok
    split at hok
    · cases hok
    next d ds hunsigned =>
      split at hok
      next hd =>
        split at hok
        next y hy =>
          cases hok
          simp only [hunsigned] at hy ⊢
          by_cases hsign : s.head? = some '-' ∨ s.head? = some '+'
          · rw [if_pos hsign] at hunsigned
            obtain ⟨c, hc⟩ : ∃ c, s = c :: d :: ds := by
              cases s with
              | nil => cases hunsigned
              | cons c r => exact ⟨c, by rw [← hunsigned]; rfl⟩
            subst hc
            refine ⟨[c], d :: ds, ?_, rfl, ⟨d, ds, rfl, hd⟩, rfl, ?_⟩
            · simpa using hsign
            · simpa using hy
          · rw [if_neg hsign] at hunsigned
            subst hunsigned
            have hminus : d ≠ '-' := by
              rintro rfl
              exact hsign (.inl rfl)
            exact ⟨[], d :: ds, .inl rfl, rfl, ⟨d, ds, rfl, hd⟩, rfl, by simpa [hminus] using hy⟩
        · cases hok
      · cases hok
  · rintro ⟨sign, u, hsign, rfl, hu, rfl, hx⟩
    rcases hsign with rfl | rfl | rfl
    · obtain ⟨d, ds, rfl, hd⟩ := hu
      have hminus : d ≠ '-' := by
        rintro rfl
        cases hd
      have hplus : d ≠ '+' := by
        rintro rfl
        cases hd
      rw [if_neg (by decide)] at hx
      refine ⟨length_dropWhile_le _ _, ?_⟩
      simp [exponent, hminus, hplus, hd, hx]
    · exact exponent_signed m (.inl rfl) hu hx
    · exact exponent_signed m (.inr rfl) hu hx

/-- What an exponent is read from is an exponent by itself, and the number is finite. -/
theorem Continues.exponent_front (h : Continues (exponent m) s x rest) :
    x.toBinary64.isFinite = true ∧ ∃ t, s = t ++ rest ∧ Continues (exponent m) t x [] := by
  obtain ⟨sign, u, hsign, rfl, ⟨d, ds, hu, hd⟩, rfl, hx⟩ := continues_exponent_iff.mp h
  refine ⟨Numeral.isFinite_of_number hx, sign ++ digits u, ?_, ?_⟩
  · rw [List.append_assoc, digits_append_afterDigits]
  · refine continues_exponent_iff.mpr ⟨sign, digits u, hsign, rfl, ?_, ?_, ?_⟩
    · refine ⟨d, digits ds, ?_, hd⟩
      rw [hu, digits, List.takeWhile_cons_of_pos hd]
      rfl
    · exact afterDigits_of_digits (digits_digits u)
    · rwa [digits_of_digits (digits_digits u)]

/-! ## Endings -/

/-- A letter in front of an exponent. -/
def ExponentLetter (c : Char) : Prop := c = 'e' ∨ c = 'E'

theorem ExponentLetter.not_digit {c : Char} (h : ExponentLetter c) : c.isDigit = false := by
  rcases h with rfl | rfl <;> rfl

/-- What follows the whole part of a number: nothing, an exponent, a point with digits, or a
point with digits and an exponent. -/
inductive Ending (negative : Bool) (whole : List Char) :
    List Char → Number → List Char → Prop
  | whole {x : Number} {rest : List Char} (hrest : ∀ c ∈ rest.head?, c ≠ '.' ∧ ¬ ExponentLetter c)
      (hx : (wholeNumber negative (digitsValue 0 whole)).or
        (Numeral.number ⟨negative, whole, 0, 0⟩) = some x) :
      Ending negative whole rest x rest
  | scaled {x : Number} {e : Char} {s rest : List Char} (he : ExponentLetter e)
      (hx : Continues (exponent ⟨negative, whole, 0, 0⟩) s x rest) :
      Ending negative whole (e :: s) x rest
  | point {x : Number} {places rest : List Char} (hne : places ≠ []) (hplaces : Digits places)
      (hdigit : NoDigit rest) (hrest : ∀ c ∈ rest.head?, ¬ ExponentLetter c)
      (hx : Numeral.number ⟨negative, whole ++ places, places.length, 0⟩ = some x) :
      Ending negative whole ('.' :: (places ++ rest)) x rest
  | pointScaled {x : Number} {places : List Char} {e : Char} {s rest : List Char}
      (hne : places ≠ []) (hplaces : Digits places) (he : ExponentLetter e)
      (hx : Continues (exponent ⟨negative, whole ++ places, places.length, 0⟩) s x rest) :
      Ending negative whole ('.' :: (places ++ e :: s)) x rest

theorem ending_of_fraction (h : Continues (fraction negative whole) s x rest) :
    Ending negative whole s x rest := by
  obtain ⟨h, hok⟩ := h
  unfold fraction at hok
  split at hok
  next s =>
    simp only at hok
    split at hok
    · split at hok <;> cases hok
    next hne =>
      rw [List.isEmpty_iff] at hne
      rw [← digits_append_afterDigits s]
      split at hok
      next r hr =>
        obtain ⟨⟨⟨y, t⟩, ht⟩, hp, heq⟩ := map_eq_ok_iff.mp hok
        cases heq
        rw [hr]
        exact .pointScaled hne (digits_digits s) (.inl rfl) ⟨ht, hp⟩
      next r hr =>
        obtain ⟨⟨⟨y, t⟩, ht⟩, hp, heq⟩ := map_eq_ok_iff.mp hok
        cases heq
        rw [hr]
        exact .pointScaled hne (digits_digits s) (.inr rfl) ⟨ht, hp⟩
      next hlower hupper =>
        split at hok
        next y hy =>
          cases hok
          refine .point hne (digits_digits s) (noDigit_afterDigits s) ?_ hy
          intro c hc
          obtain ⟨r, hr⟩ := List.head?_eq_some_iff.mp hc
          rintro (rfl | rfl)
          · exact hlower r hr
          · exact hupper r hr
        · cases hok
  next r =>
    obtain ⟨⟨⟨y, t⟩, ht⟩, hp, heq⟩ := map_eq_ok_iff.mp hok
    cases heq
    exact .scaled (.inl rfl) ⟨ht, hp⟩
  next r =>
    obtain ⟨⟨⟨y, t⟩, ht⟩, hp, heq⟩ := map_eq_ok_iff.mp hok
    cases heq
    exact .scaled (.inr rfl) ⟨ht, hp⟩
  next hpoint hlower hupper =>
    have hrest : ∀ c ∈ s.head?, c ≠ '.' ∧ ¬ ExponentLetter c := by
      intro c hc
      obtain ⟨r, rfl⟩ := List.head?_eq_some_iff.mp hc
      refine ⟨?_, ?_⟩
      · rintro rfl
        exact hpoint r rfl
      · rintro (rfl | rfl)
        · exact hlower r rfl
        · exact hupper r rfl
    split at hok
    next y hy =>
      cases hok
      exact .whole hrest (by rw [hy]; rfl)
    next hy =>
      split at hok
      next z hz =>
        cases hok
        exact .whole hrest (by rw [hy]; exact hz)
      · cases hok

theorem Ending.fraction (h : Ending negative whole s x rest) :
    Continues (fraction negative whole) s x rest := by
  cases h with
  | whole hrest hx =>
    refine ⟨Nat.le_refl _, ?_⟩
    unfold Reader.fraction
    split
    next => exact absurd rfl (hrest '.' rfl).1
    next => exact absurd (.inl rfl) (hrest 'e' rfl).2
    next => exact absurd (.inr rfl) (hrest 'E' rfl).2
    next =>
      cases hw : wholeNumber negative (digitsValue 0 whole) with
      | some y =>
        rw [hw] at hx
        cases hx
        rfl
      | none =>
        rw [hw, Option.none_or] at hx
        simp only [hx]
  | scaled he hx =>
    obtain ⟨hle, hx⟩ := hx
    refine ⟨Nat.le_succ_of_le hle, ?_⟩
    rcases he with rfl | rfl
    · simp [Reader.fraction, hx, Except.map]
    · simp [Reader.fraction, hx, Except.map]
  | point hne hplaces hdigit hrest hx =>
    have hds := digits_append hplaces hdigit
    have hafter := afterDigits_append hplaces hdigit
    refine ⟨by simp only [List.length_cons, List.length_append]; omega, ?_⟩
    simp only [Reader.fraction, hds, List.isEmpty_iff, hne, if_false]
    split
    next r h =>
      rw [hafter] at h
      exact absurd (.inl rfl) (hrest 'e' (h ▸ rfl))
    next r h =>
      rw [hafter] at h
      exact absurd (.inr rfl) (hrest 'E' (h ▸ rfl))
    next => simp [hx, hafter]
  | @pointScaled x places e s rest hne hplaces he hx =>
    obtain ⟨hle, hx⟩ := hx
    have hle : rest.length ≤ s.length := hle
    have hdigit := NoDigit.cons he.not_digit s
    have hds := digits_append hplaces hdigit
    have hafter := afterDigits_append hplaces hdigit
    refine ⟨by simp only [List.length_cons, List.length_append]; omega, ?_⟩
    simp only [Reader.fraction, hds, List.isEmpty_iff, hne, if_false]
    rcases he with rfl | rfl
    all_goals split
    next r h =>
      rw [hafter] at h
      cases h
      simp [hx, Except.map]
    next r h =>
      rw [hafter] at h
      cases h
    next hlower _ => exact absurd hafter (hlower _)
    next r h =>
      rw [hafter] at h
      cases h
    next r h =>
      rw [hafter] at h
      cases h
      simp [hx, Except.map]
    next hupper => exact absurd hafter (hupper _)

theorem continues_fraction_iff :
    Continues (fraction negative whole) s x rest ↔ Ending negative whole s x rest :=
  ⟨ending_of_fraction, Ending.fraction⟩

theorem Ending.isFinite (h : Ending negative whole s x rest) : x.toBinary64.isFinite = true := by
  cases h with
  | whole _ hx =>
    rcases Option.or_eq_some_iff.mp hx with hx | ⟨-, hx⟩
    · exact wholeNumber_finite hx
    · exact Numeral.isFinite_of_number hx
  | scaled _ hx => exact hx.exponent_front.1
  | point _ _ _ _ hx => exact Numeral.isFinite_of_number hx
  | pointScaled _ _ _ hx => exact hx.exponent_front.1

/-- An ending has a text of its own, which does not start with a digit if what it was read
from does not. -/
theorem Ending.front (h : Ending negative whole s x rest) :
    ∃ t, s = t ++ rest ∧ Ending negative whole t x [] := by
  cases h with
  | whole _ hx => exact ⟨[], rfl, .whole (by simp) hx⟩
  | scaled he hx =>
    obtain ⟨-, t, rfl, ht⟩ := hx.exponent_front
    exact ⟨_ :: t, rfl, .scaled he ht⟩
  | @point x places rest hne hplaces _ _ hx =>
    refine ⟨'.' :: (places ++ []), by simp, .point hne hplaces .nil (by simp) hx⟩
  | @pointScaled x places e s rest hne hplaces he hx =>
    obtain ⟨-, t, rfl, ht⟩ := hx.exponent_front
    exact ⟨'.' :: (places ++ e :: t), by simp, .pointScaled hne hplaces he ht⟩

/-! ## Whole parts -/

/-- The digits in front of a point: a zero, or digits that do not start with one. -/
def Whole (ds : List Char) : Prop :=
  ds = ['0'] ∨ Digits ds ∧ ∃ c t, ds = c :: t ∧ c ≠ '0'

theorem takes_unsignedNumber_iff : Takes (unsignedNumber negative) s x rest ↔
    ∃ whole u, Whole whole ∧ s = whole ++ u ∧ NoDigit u ∧ Ending negative whole u x rest := by
  simp only [← continues_fraction_iff]
  constructor
  · rintro ⟨h, hok⟩
    unfold unsignedNumber at hok
    split at hok
    · cases hok
    next c s =>
      split at hok
      next hc =>
        subst hc
        split at hok
        next d r =>
          split at hok
          · cases hok
          next hd =>
            obtain ⟨⟨⟨y, t⟩, ht⟩, hp, heq⟩ := map_eq_ok_iff.mp hok
            cases heq
            exact ⟨['0'], d :: r, .inl rfl, rfl, .cons (by simpa using hd) r, ht, hp⟩
        · obtain ⟨⟨⟨y, t⟩, ht⟩, hp, heq⟩ := map_eq_ok_iff.mp hok
          cases heq
          exact ⟨['0'], [], .inl rfl, rfl, .nil, ht, hp⟩
      next hc =>
        split at hok
        next hd =>
          obtain ⟨⟨⟨y, t⟩, ht⟩, hp, heq⟩ := map_eq_ok_iff.mp hok
          cases heq
          refine ⟨c :: digits s, afterDigits s, .inr ⟨?_, c, _, rfl, hc⟩, ?_,
            noDigit_afterDigits s, ht, hp⟩
          · intro b hb
            rcases List.mem_cons.mp hb with rfl | hb
            · exact hd
            · exact digits_digits s b hb
          · rw [List.cons_append, digits_append_afterDigits]
        · cases hok
  · rintro ⟨whole, u, hwhole, rfl, hu, hle, h⟩
    rcases hwhole with rfl | ⟨hds, c, t, rfl, hc⟩
    · refine ⟨Nat.lt_succ_of_le hle, ?_⟩
      cases u with
      | nil => simp [unsignedNumber, h, Except.map]
      | cons d r => simp [unsignedNumber, h, Except.map, hu d rfl]
    · have ht : Digits t := fun d hd => hds d (List.mem_cons_of_mem _ hd)
      have hgo : Continues (fraction negative (c :: digits (t ++ u))) (afterDigits (t ++ u))
          x rest := by
        rw [digits_append ht hu, afterDigits_append ht hu]
        exact ⟨hle, h⟩
      obtain ⟨hle, hgo⟩ := hgo
      have hshort := length_dropWhile_le Char.isDigit (t ++ u)
      refine ⟨Nat.lt_succ_of_le (Nat.le_trans hle hshort), ?_⟩
      simp [unsignedNumber, hc, hds c List.mem_cons_self, hgo, Except.map]

/-- What is read as a number without a sign is finite and has a text of its own. -/
theorem Takes.unsigned_front (h : Takes (unsignedNumber negative) s x rest) :
    x.toBinary64.isFinite = true ∧
      ∃ t, s = t ++ rest ∧ Takes (unsignedNumber negative) t x [] := by
  obtain ⟨whole, u, hwhole, rfl, hu, hx⟩ := takes_unsignedNumber_iff.mp h
  obtain ⟨t, rfl, ht⟩ := hx.front
  refine ⟨hx.isFinite, whole ++ t, by rw [List.append_assoc], ?_⟩
  exact takes_unsignedNumber_iff.mpr ⟨whole, t, hwhole, rfl, hu.left, ht⟩

/-! ## Numbers -/

theorem takes_number_minus :
    Takes number ('-' :: s) x rest ↔ Takes (unsignedNumber true) s x rest := by
  constructor
  · rintro ⟨h, hok⟩
    obtain ⟨taken, htaken, heq⟩ := map_eq_ok_iff.mp (show _ = Except.ok _ from hok)
    cases heq
    exact ⟨taken.shorter, htaken⟩
  · rintro ⟨h, hok⟩
    refine ⟨Nat.lt_succ_of_lt h, ?_⟩
    show (unsignedNumber true s).map _ = _
    rw [hok]
    rfl

theorem takes_number_of_ne (h : ∀ r, s ≠ '-' :: r) :
    Takes number s x rest ↔ Takes (unsignedNumber false) s x rest := by
  have hread : number s = unsignedNumber false s := by
    unfold number
    split
    next r => exact (h r rfl).elim
    next => rfl
  rw [Takes, Takes, hread]

/-- **A number has a text of its own**: where one is read, it stands in the characters that
are taken, and they are read as this number also by themselves. It is finite. -/
theorem Takes.number_front (h : Takes number s x rest) :
    x.toBinary64.isFinite = true ∧ ∃ t, s = t ++ rest ∧ Takes number t x [] := by
  by_cases hminus : ∃ r, s = '-' :: r
  · obtain ⟨r, rfl⟩ := hminus
    obtain ⟨hfinite, t, rfl, ht⟩ := (takes_number_minus.mp h).unsigned_front
    exact ⟨hfinite, '-' :: t, rfl, takes_number_minus.mpr ht⟩
  · rw [not_exists] at hminus
    obtain ⟨hfinite, t, rfl, ht⟩ := ((takes_number_of_ne hminus).mp h).unsigned_front
    refine ⟨hfinite, t, rfl, (takes_number_of_ne ?_).mpr ht⟩
    rintro r rfl
    exact hminus _ rfl

end Tabular.Json.Reader
