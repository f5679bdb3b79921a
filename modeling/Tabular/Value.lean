import Tabular.Json.Printer

/-!
# Field values

A field of a record holds a number or a text. `Value.compare` orders what a
field may hold, a missing value included: nothing comes first, then the numbers
in their total order, then the texts by their bytes. It is a total order in
which only identical values compare equal, so a sort by it is determined up to
the order of equal keys.
-/

namespace Tabular

/-- What a field holds. -/
inductive Value where
  | number (value : Binary64)
  | text (value : String)
  deriving DecidableEq

namespace Value

def number? : Value → Option Binary64
  | number x => some x
  | text _ => none

def text? : Value → Option String
  | number _ => none
  | text s => some s

/-- What messages call the kind of a value. -/
def kindName : Value → String
  | number _ => "number"
  | text _ => "string"

/-- A value as JSON. What is no finite number becomes null. -/
def toJson : Value → Json
  | number x => if h : x.isFinite = true then .number (.real x h) else .null
  | text s => .string s

/-- Compares what two fields hold, `none` standing for a missing field. -/
def compare : Option Value → Option Value → Ordering
  | none, none => .eq
  | none, some _ => .lt
  | some _, none => .gt
  | some (number x), some (number y) => x.totalOrder y
  | some (number _), some (text _) => .lt
  | some (text _), some (number _) => .gt
  | some (text s), some (text t) => Text.order s t

/-! ## A total order -/

instance : Std.OrientedCmp compare where
  eq_swap {a b} := by
    match a, b with
    | none, none => rfl
    | none, some (number _) | none, some (text _) => rfl
    | some (number _), none | some (text _), none => rfl
    | some (number x), some (number y) => exact Std.OrientedOrd.eq_swap
    | some (number _), some (text _) | some (text _), some (number _) => rfl
    | some (text s), some (text t) => exact Text.order_swap s t

instance : Std.LawfulEqCmp compare where
  compare_self {a} := by
    match a with
    | none => rfl
    | some (number x) => exact Std.ReflOrd.compare_self
    | some (text s) => exact Text.order_self s
  eq_of_compare {a b} h := by
    match a, b, h with
    | none, none, _ => rfl
    | some (number x), some (number y), h =>
      rw [Binary64.place_injective (Std.LawfulEqOrd.eq_of_compare h)]
    | some (text s), some (text t), h =>
      rw [Text.eq_of_order h]

instance : Std.TransCmp compare where
  isLE_trans {a b c} hab hbc := by
    match a, b, c, hab, hbc with
    | none, _, none, _, _ => rfl
    | none, _, some _, _, _ => rfl
    | some (number x), some (number y), some (number z), hab, hbc =>
      exact Std.TransOrd.isLE_trans (α := Int) hab hbc
    | some (number _), some _, some (text _), _, _ => rfl
    | some (text s), some (text t), some (text u), hab, hbc =>
      exact Text.order_isLE_trans hab hbc

end Value

end Tabular
