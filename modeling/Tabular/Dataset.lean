import Tabular.Value

/-!
# Datasets

A dataset is a sequence of flat records under an id, with the kind of things
that it describes. Its fields are those of the first record; other records may
lack some of them or have more.
-/

namespace Tabular

/-- Field names and what the fields hold. -/
abbrev Record := Dictionary Value

/-- What the records of a dataset describe. -/
inductive Kind where
  /-- Sections of courses. -/
  | courses
  /-- Rooms of buildings. -/
  | rooms
  deriving DecidableEq, Repr

/-- The name under which a kind is written and read. -/
def Kind.name : Kind → String
  | courses => "courses"
  | rooms => "rooms"

/-- All kinds, in the order in which messages list them. -/
def Kind.all : List Kind := [.courses, .rooms]

def Kind.ofName? (name : String) : Option Kind := all.find? fun k => k.name = name

theorem Kind.ofName?_name (k : Kind) : ofName? k.name = some k := by
  cases k <;> decide

/-- A named sequence of records. -/
structure Dataset where
  id : String
  kind : Kind
  records : List Record
  deriving DecidableEq

namespace Dataset

def size (d : Dataset) : Nat := d.records.length

/-- Whether a local name is a field: a key of the first record. -/
def hasField (d : Dataset) (field : String) : Bool :=
  match d.records with
  | [] => false
  | first :: _ => first.contains field

structure Info where
  id : String
  kind : Kind
  size : Nat
  deriving DecidableEq, Repr

def info (d : Dataset) : Info := ⟨d.id, d.kind, d.size⟩

/-- A summary as JSON, its keys in this order. -/
def Info.toJson (i : Info) : Json :=
  .object [("id", .string i.id), ("kind", .string i.kind.name), ("numRows", .ofNat i.size)]

end Dataset

end Tabular
