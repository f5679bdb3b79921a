import Tabular.Dictionary
import Tabular.Json.Number

/-!
# JSON values

The value of a JSON text. An object holds its members as an entry list; a value
that was read has them in ascending order of their keys at every depth, which is
the predicate `Json.Ordered`. Lists built for writing may have another order,
and the writer keeps it.
-/

namespace Tabular

inductive Json where
  | null
  | bool (value : Bool)
  | number (value : Json.Number)
  | string (value : String)
  | array (items : List Json)
  | object (members : List (String × Json))
  deriving Inhabited

namespace Json

mutual

/-- Every object inside has strictly ascending keys. -/
def Ordered : Json → Prop
  | array items => OrderedItems items
  | object members => Ascending members ∧ OrderedMembers members
  | _ => True

def OrderedItems : List Json → Prop
  | [] => True
  | item :: rest => Ordered item ∧ OrderedItems rest

def OrderedMembers : List (String × Json) → Prop
  | [] => True
  | member :: rest => Ordered member.2 ∧ OrderedMembers rest

end

def ofNat (n : Nat) : Json := number (.integer n)

/-- The keys of a member list, as written in messages. -/
def keyList (members : List (String × Json)) : List String := members.map (·.1)

end Json

end Tabular
