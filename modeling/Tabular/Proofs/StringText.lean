import Mathlib.Data.List.Basic
import Tabular.Json.Printer
import Tabular.Proofs.NumberText

/-!
# The text of a string reads back

In quotation marks a character stands as itself or as one of two kinds of escapes
(`escape_forms`), and an escape starts with a backslash and reads as the character it stands
for (`escape_cases`). So what is read up to the closing mark are the characters that were
written, whatever they are (`takes_characters`).
-/

namespace Tabular.Json.Reader

/-! ## Escapes -/

theorem hexValue_hexDigit {n : Nat} (h : n < 16) : hexValue (hexDigit n) = some n := by
  have hall : ∀ n < 16, hexValue (hexDigit n) = some n := by decide
  exact hall n h

/-- Four digits of which the first two are zero. -/
theorem hexQuad_byte {high low : Nat} (hhigh : high < 16) (hlow : low < 16)
    (rest : List Char) :
    ∃ h, hexQuad ('0' :: '0' :: hexDigit high :: hexDigit low :: rest) =
      .ok ⟨(high * 16 + low, rest), h⟩ := by
  have hzero : hexValue '0' = some 0 := by decide
  refine ⟨by simp only [List.length_cons]; omega, ?_⟩
  simp [hexQuad, hzero, hexValue_hexDigit hhigh, hexValue_hexDigit hlow]

/-- A number below those of the surrogates is the character. -/
theorem unicodeEscape_of_hexQuad {s rest : List Char} {n : Nat} (hn : n < 0xD800)
    (h : ∃ hlt, hexQuad s = .ok ⟨(n, rest), hlt⟩) :
    ∃ hlt, unicodeEscape s = .ok ⟨(Char.ofNat n, rest), hlt⟩ := by
  obtain ⟨hlt, h⟩ := h
  refine ⟨hlt, ?_⟩
  show hexQuad s >>= _ = _
  rw [h]
  show (if 0xDC00 ≤ n ∧ n < 0xE000 then _ else if 0xD800 ≤ n ∧ n < 0xDC00 then _ else _) = _
  rw [if_neg (by omega), if_neg (by omega)]

/-- The escape of a control character by its number. -/
theorem escaped_control {c : Char} (hc : c.toNat < 0x20) (rest : List Char) :
    ∃ h, escaped ('u' :: '0' :: '0' :: hexDigit (c.toNat / 16) :: hexDigit (c.toNat % 16) ::
      rest) = .ok ⟨(c, rest), h⟩ := by
  have hhigh : c.toNat / 16 < 16 := by omega
  have hlow : c.toNat % 16 < 16 := by omega
  have hquad := hexQuad_byte hhigh hlow rest
  rw [Nat.div_add_mod'] at hquad
  obtain ⟨h, hread⟩ := unicodeEscape_of_hexQuad (by omega) hquad
  rw [Char.ofNat_toNat] at hread
  refine ⟨Nat.lt_succ_of_lt h, ?_⟩
  show (unicodeEscape _).map _ = _
  rw [hread]
  rfl

/-- The letters of the short escapes and the characters they stand for. -/
def shortEscapes : List (Char × Char) :=
  [('"', '"'), ('\\', '\\'), ('b', '\x08'), ('f', '\x0c'), ('n', '\n'), ('r', '\r'), ('t', '\t')]

theorem escaped_short {x c : Char} (h : (x, c) ∈ shortEscapes) (rest : List Char) :
    ∃ h, escaped (x :: rest) = .ok ⟨(c, rest), h⟩ := by
  refine ⟨Nat.lt_succ_self _, ?_⟩
  simp only [shortEscapes, List.mem_cons, Prod.mk.injEq, List.not_mem_nil, or_false] at h
  rcases h with ⟨rfl, rfl⟩ | ⟨rfl, rfl⟩ | ⟨rfl, rfl⟩ | ⟨rfl, rfl⟩ | ⟨rfl, rfl⟩ | ⟨rfl, rfl⟩ |
    ⟨rfl, rfl⟩ <;> rfl

/-- A character in quotation marks stands as a short escape, as an escape by its number, or as
itself. -/
theorem escape_forms (c : Char) :
    (∃ x, (x, c) ∈ shortEscapes ∧ escape c = ['\\', x]) ∨
      (c.toNat < 0x20 ∧ escape c =
        ['\\', 'u', '0', '0', hexDigit (c.toNat / 16), hexDigit (c.toNat % 16)]) ∨
      (escape c = [c] ∧ c ≠ '"' ∧ c ≠ '\\' ∧ ¬ c.toNat < 0x20) := by
  by_cases hshort : c ∈ shortEscapes.map (·.2)
  · simp only [shortEscapes, List.map_cons, List.map_nil, List.mem_cons, List.not_mem_nil,
      or_false] at hshort
    rcases hshort with rfl | rfl | rfl | rfl | rfl | rfl | rfl <;>
      exact .inl ⟨_, by decide, rfl⟩
  · simp only [shortEscapes, List.map_cons, List.map_nil, List.mem_cons, List.not_mem_nil,
      or_false, not_or] at hshort
    obtain ⟨hquote, hslash, hb, hf, hn, hr, ht⟩ := hshort
    rw [escape, if_neg hquote, if_neg hslash, if_neg hb, if_neg hf, if_neg hn, if_neg hr,
      if_neg ht]
    by_cases hcontrol : c.toNat < 0x20
    · rw [if_pos hcontrol]
      exact .inr (.inl ⟨hcontrol, rfl⟩)
    · rw [if_neg hcontrol]
      exact .inr (.inr ⟨rfl, hquote, hslash, hcontrol⟩)

/-- A character in quotation marks stands as itself, or as an escape that reads as it. -/
theorem escape_cases (c : Char) :
    (escape c = [c] ∧ c ≠ '"' ∧ c ≠ '\\' ∧ ¬ c.toNat < 0x20) ∨
      ∃ t, escape c = '\\' :: t ∧ ∀ rest, ∃ h, escaped (t ++ rest) = .ok ⟨(c, rest), h⟩ := by
  rcases escape_forms c with ⟨x, hx, hescape⟩ | ⟨hcontrol, hescape⟩ | hplain
  · exact .inr ⟨_, hescape, escaped_short hx⟩
  · exact .inr ⟨_, hescape, escaped_control hcontrol⟩
  · exact .inl hplain

/-! ## Strings -/

/-- The characters up to the closing mark, behind those already read. -/
theorem charactersFrom_text {whole s : List Char} (cs read rest : List Char)
    (hs : s = cs.flatMap escape ++ '"' :: rest) (h : s.length ≤ whole.length) :
    ∃ hlt, charactersFrom whole read s h =
      .ok ⟨String.ofList (read.reverse ++ cs), rest, hlt⟩ := by
  induction cs generalizing read s with
  | nil =>
    subst hs
    refine ⟨h, ?_⟩
    show charactersFrom whole read ('"' :: rest) h = _
    rw [charactersFrom, if_pos rfl, List.append_nil]
  | cons c cs ih =>
    have happend : read.reverse ++ c :: cs = (c :: read).reverse ++ cs := by
      rw [List.reverse_cons, List.append_assoc, List.singleton_append]
    rw [List.flatMap_cons, List.append_assoc] at hs
    rw [happend]
    rcases escape_cases c with ⟨hplain, hquote, hslash, hcontrol⟩ | ⟨t, hescape, hread⟩
    · rw [hplain, List.singleton_append] at hs
      subst hs
      rw [charactersFrom, if_neg hquote, if_neg hslash, if_neg hcontrol]
      exact ih _ rfl _
    · rw [hescape, List.cons_append] at hs
      subst hs
      obtain ⟨_, hread⟩ := hread (cs.flatMap escape ++ '"' :: rest)
      rw [charactersFrom, if_neg (by decide), if_pos rfl, hread]
      exact ih _ rfl _

/-- **A text reads back**, behind its opening quotation mark. -/
theorem takes_characters (t : String) (rest : List Char) :
    Takes characters (t.toList.flatMap escape ++ '"' :: rest) t rest := by
  have hread := charactersFrom_text t.toList [] rest rfl (Nat.le_refl _)
  rwa [List.reverse_nil, List.nil_append, String.ofList_toList] at hread

end Tabular.Json.Reader
