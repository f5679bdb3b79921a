import Mathlib.Order.Basic
import Tabular.Text.Order

/-!
# Bytes and code points

Texts are compared by their UTF-8 bytes. That is the order of their code points:
of two characters the one with the greater code point has the greater encoding
whatever follows it (`compare_utf8EncodeChar`), because the first byte tells how
many follow and grows with their number, and all bytes of encodings of one length
carry bits of the code point from the highest down. So the first characters that
differ decide in both orders (`compare_flatMap_utf8EncodeChar`).
-/

namespace Tabular.Text

/-- The code points of a text. -/
def codePoints (s : String) : List Nat := s.toList.map Char.toNat

theorem ofNat_eq_ofNat_iff {m n : Nat} (hm : m < 256) (hn : n < 256) :
    UInt8.ofNat m = UInt8.ofNat n ↔ m = n := by
  rw [← UInt8.toNat_inj, UInt8.toNat_ofNat', UInt8.toNat_ofNat']
  omega

theorem compare_ofNat {m n : Nat} (hm : m < 256) (hn : n < 256) :
    compare (UInt8.ofNat m) (UInt8.ofNat n) = compare m n := by
  have hlt : UInt8.ofNat m < UInt8.ofNat n ↔ m < n := by
    rw [UInt8.lt_iff_toNat_lt, UInt8.toNat_ofNat', UInt8.toNat_ofNat']
    omega
  show compareOfLessAndEq _ _ = compareOfLessAndEq _ _
  simp only [compareOfLessAndEq, hlt, ofNat_eq_ofNat_iff hm hn]

/-- The encoding of a character, by the number of its bytes. -/
theorem utf8EncodeChar_cases (c : Char) :
    (c.toNat ≤ 0x7f ∧ String.utf8EncodeChar c = [.ofNat c.toNat]) ∨
    (0x7f < c.toNat ∧ c.toNat ≤ 0x7ff ∧ String.utf8EncodeChar c =
      [.ofNat (c.toNat / 64 % 32 + 0xc0), .ofNat (c.toNat % 64 + 0x80)]) ∨
    (0x7ff < c.toNat ∧ c.toNat ≤ 0xffff ∧ String.utf8EncodeChar c =
      [.ofNat (c.toNat / 64 / 64 % 16 + 0xe0), .ofNat (c.toNat / 64 % 64 + 0x80),
        .ofNat (c.toNat % 64 + 0x80)]) ∨
    (0xffff < c.toNat ∧ c.toNat < 0x110000 ∧ String.utf8EncodeChar c =
      [.ofNat (c.toNat / 64 / 64 / 64 % 8 + 0xf0), .ofNat (c.toNat / 64 / 64 % 64 + 0x80),
        .ofNat (c.toNat / 64 % 64 + 0x80), .ofNat (c.toNat % 64 + 0x80)]) := by
  have hvalid : c.toNat < 0x110000 := by
    have := c.valid
    simp only [UInt32.isValidChar, Nat.isValidChar] at this
    show c.val.toNat < _
    omega
  by_cases h1 : c.toNat ≤ 0x7f
  · exact .inl ⟨h1, by simp [String.utf8EncodeChar, h1]⟩
  · by_cases h2 : c.toNat ≤ 0x7ff
    · exact .inr (.inl ⟨by omega, h2, by simp [String.utf8EncodeChar, h1, h2]⟩)
    · by_cases h3 : c.toNat ≤ 0xffff
      · refine .inr (.inr (.inl ⟨by omega, h3, ?_⟩))
        simp [String.utf8EncodeChar, h1, h2, h3, Nat.div_div_eq_div_mul]
      · refine .inr (.inr (.inr ⟨by omega, hvalid, ?_⟩))
        simp [String.utf8EncodeChar, h1, h2, h3, Nat.div_div_eq_div_mul]

/-- The bytes up to `0x7f` stand for one character each, and in no longer encoding. -/
theorem ofNat_mem_utf8EncodeChar_iff {n : Nat} (hn : n ≤ 0x7f) {c : Char} :
    UInt8.ofNat n ∈ String.utf8EncodeChar c ↔ c.toNat = n := by
  rcases utf8EncodeChar_cases c with ⟨hc, hcb⟩ | ⟨hc, hc', hcb⟩ | ⟨hc, hc', hcb⟩ | ⟨hc, hc', hcb⟩ <;>
    rw [hcb] <;>
    simp (disch := omega) only [List.mem_cons, List.not_mem_nil, or_false, ofNat_eq_ofNat_iff] <;>
    omega

/-- The encodings of two characters stand in the order of the characters, and
neither is a beginning of the other. -/
theorem compare_utf8EncodeChar {c d : Char} (h : c.toNat < d.toNat) (s t : List UInt8) :
    compare (String.utf8EncodeChar c ++ s) (String.utf8EncodeChar d ++ t) = .lt := by
  -- One case for each pair of lengths. Between different lengths the first byte
  -- decides; within one, the first byte whose bits differ.
  rcases utf8EncodeChar_cases c with ⟨hc, hcb⟩ | ⟨hc, hc', hcb⟩ | ⟨hc, hc', hcb⟩ | ⟨hc, hc', hcb⟩ <;>
    rcases utf8EncodeChar_cases d with ⟨hd, hdb⟩ | ⟨hd, hd', hdb⟩ | ⟨hd, hd', hdb⟩ | ⟨hd, hd', hdb⟩ <;>
    rw [hcb, hdb] <;>
    simp (disch := omega) only [List.cons_append, List.nil_append, List.compare_cons_cons,
      compare_ofNat, Ordering.then_eq_lt, Nat.compare_eq_lt, Nat.compare_eq_eq] <;>
    omega

theorem compare_append_left (u s t : List UInt8) : compare (u ++ s) (u ++ t) = compare s t := by
  induction u with
  | nil => rfl
  | cons b u ih =>
    have hb : compare b b = .eq := Std.ReflOrd.compare_self
    rw [List.cons_append, List.cons_append, List.compare_cons_cons, hb, ih]
    rfl

/-- Comparing encodings is comparing code points. -/
theorem compare_flatMap_utf8EncodeChar (s t : List Char) :
    compare (s.flatMap String.utf8EncodeChar) (t.flatMap String.utf8EncodeChar) =
      compare (s.map Char.toNat) (t.map Char.toNat) := by
  induction s generalizing t with
  | nil =>
    cases t with
    | nil => rfl
    | cons d t =>
      obtain ⟨b, bs, hb⟩ := List.exists_cons_of_ne_nil (String.utf8EncodeChar_ne_nil (c := d))
      rw [List.flatMap_cons, hb]
      rfl
  | cons c s ih =>
    cases t with
    | nil =>
      obtain ⟨b, bs, hb⟩ := List.exists_cons_of_ne_nil (String.utf8EncodeChar_ne_nil (c := c))
      rw [List.flatMap_cons, hb]
      rfl
    | cons d t =>
      rw [List.flatMap_cons, List.flatMap_cons, List.map_cons, List.map_cons,
        List.compare_cons_cons]
      rcases Nat.lt_trichotomy c.toNat d.toNat with hlt | heq | hgt
      · rw [compare_utf8EncodeChar hlt, Nat.compare_eq_lt.mpr hlt]
        rfl
      · have hcd : c = d := Char.ext (UInt32.toNat_inj.mp heq)
        rw [hcd, compare_append_left, ih, Nat.compare_eq_eq.mpr rfl]
        rfl
      · -- The lemma is about the smaller character first: exchange the texts.
        have hbytes := compare_utf8EncodeChar hgt (t.flatMap String.utf8EncodeChar)
          (s.flatMap String.utf8EncodeChar)
        rw [Std.OrientedOrd.eq_swap, hbytes, Nat.compare_eq_gt.mpr hgt]
        rfl

/-- The order of texts is the order of their code points. -/
theorem compare_codePoints (s t : String) : compare (codePoints s) (codePoints t) = order s t := by
  rw [order, bytes_eq_flatMap, bytes_eq_flatMap, compare_flatMap_utf8EncodeChar]
  rfl

theorem isLE_compare_codePoints_iff {s t : String} :
    (compare (codePoints s) (codePoints t)).isLE = true ↔ ¬ Before t s := by
  rw [compare_codePoints, Before, order_swap t s]
  cases order s t <;> decide

end Tabular.Text
