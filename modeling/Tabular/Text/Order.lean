/-!
# The order of texts

Texts are compared by their UTF-8 bytes, the first byte that differs deciding
and a proper beginning of a text coming before it. The comparison is a total
order in which only equal texts compare equal, so a list of keys has one
ascending arrangement.
-/

namespace Tabular.Text

/-- The UTF-8 bytes of a text, first to last. -/
def bytes (s : String) : List UInt8 :=
  s.toByteArray.data.toList

/-- Compares two texts byte by byte. -/
def order (a b : String) : Ordering :=
  compare (bytes a) (bytes b)

/-- One text comes strictly before another. -/
def Before (a b : String) : Prop :=
  order a b = .lt

instance (a b : String) : Decidable (Before a b) :=
  inferInstanceAs (Decidable (_ = _))

/-- The bytes of a text are the encodings of its characters, in turn. -/
theorem bytes_eq_flatMap (s : String) : bytes s = s.toList.flatMap String.utf8EncodeChar := by
  have h : s.toByteArray = s.toList.utf8Encode := by
    rw [← String.toByteArray_ofList, String.ofList_toList]
  simp [bytes, h, List.utf8Encode]

theorem bytes_injective {a b : String} (h : bytes a = bytes b) : a = b := by
  apply String.toByteArray_inj.1
  exact ByteArray.ext (Array.toList_inj.1 h)

instance : Std.OrientedCmp order where
  eq_swap := Std.OrientedOrd.eq_swap

instance : Std.TransCmp order where
  isLE_trans := Std.TransOrd.isLE_trans

instance : Std.LawfulEqCmp order where
  eq_of_compare h := bytes_injective (Std.LawfulEqOrd.eq_of_compare h)

theorem order_self (a : String) : order a a = .eq := Std.ReflCmp.compare_self

theorem order_swap (a b : String) : order a b = (order b a).swap := Std.OrientedCmp.eq_swap

theorem eq_of_order {a b : String} (h : order a b = .eq) : a = b :=
  Std.LawfulEqCmp.eq_of_compare h

theorem order_isLE_trans {a b c : String} (hab : (order a b).isLE) (hbc : (order b c).isLE) :
    (order a c).isLE :=
  Std.TransCmp.isLE_trans hab hbc

theorem not_before_self (a : String) : ¬ Before a a := by
  simp [Before, order_self]

theorem Before.trans {a b c : String} (hab : Before a b) (hbc : Before b c) : Before a c :=
  Std.TransCmp.lt_trans hab hbc

theorem Before.ne {a b : String} (h : Before a b) : a ≠ b :=
  fun e => not_before_self b (e ▸ h)

theorem Before.asymm {a b : String} (h : Before a b) : ¬ Before b a :=
  fun h' => not_before_self a (h.trans h')

end Tabular.Text
