import Tabular.Query.Answer
import Tabular.Query.Grammar

/-!
# The catalog of loaded datasets

A catalog holds datasets under their ids. An operation answers and leaves a
catalog behind; one that fails leaves the catalog that it found. A valid id is
needed to add or to remove, while looking up asks only whether the id is there.
-/

namespace Tabular

/-- The loaded datasets by id. -/
structure Catalog where
  datasets : Dictionary Dataset
  deriving DecidableEq

/-- What an operation answers, and the catalog that it leaves. -/
abbrev Outcome (α : Type) := Except Error α × Catalog

namespace Catalog

def empty : Catalog := ⟨.empty⟩

instance : Inhabited Catalog := ⟨empty⟩

def get? (c : Catalog) (id : String) : Option Dataset := c.datasets.get? id

def contains (c : Catalog) (id : String) : Bool := c.datasets.contains id

/-- The loaded ids, ascending. -/
def ids (c : Catalog) : List String := c.datasets.keys

/-- The loaded dataset of an id, or the report that there is none. -/
def get (c : Catalog) (id : String) : Except Error Dataset :=
  match c.get? id with
  | some d => .ok d
  | none => .error (.notFound id)

/-- Summaries of the loaded datasets, by ascending id. -/
def list (c : Catalog) : List Dataset.Info := c.datasets.values.map Dataset.info

/-- Loads a dataset, and answers with the ids that are then loaded. -/
def add (c : Catalog) (id : String) (kind : Kind) (records : List Record) :
    Outcome (List String) :=
  match checkId id with
  | .error fault => (.error (.ofIdFault id fault), c)
  | .ok () =>
    if c.contains id then (.error (.duplicate id), c)
    else
      let next : Catalog := ⟨c.datasets.insert id ⟨id, kind, records⟩⟩
      (.ok next.ids, next)

/-- Loads a dataset from a source, which is asked only for an id that can be
added. -/
def addFrom (c : Catalog) (id : String) (kind : Kind)
    (source : Unit → Except LoadFault (List Record)) : Outcome (List String) :=
  match checkId id with
  | .error fault => (.error (.ofIdFault id fault), c)
  | .ok () =>
    if c.contains id then (.error (.duplicate id), c)
    else
      match source () with
      | .error fault => (.error (.ingest id fault), c)
      | .ok records => c.add id kind records

/-- Unloads a dataset, and answers with its id. -/
def remove (c : Catalog) (id : String) : Outcome String :=
  match checkId id with
  | .error fault => (.error (.ofIdFault id fault), c)
  | .ok () =>
    if c.contains id then (.ok id, ⟨c.datasets.erase id⟩)
    else (.error (.notFound id), c)

/-- The rows that a query shows of the dataset it is for. -/
def execute [Searcher] (c : Catalog) (q : Query) : Except Error (List Row) := do
  let d ← c.get q.datasetId
  q.run d

def query [Searcher] (c : Catalog) (json : Json) : Except Error (List Row) := do
  let q ← (Query.ofJson json).mapError Error.shape
  c.execute q

def queryText [Searcher] (c : Catalog) (text : String) : Except Error (List Row) := do
  let q ← (Query.ofText text).mapError Error.shape
  c.execute q

end Catalog

end Tabular
