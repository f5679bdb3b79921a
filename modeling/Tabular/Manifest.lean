import Tabular.Catalog
import Tabular.Disk.Path
import Tabular.Yaml.Reader

/-!
# Manifests

A manifest lists the datasets to load, each with its id, its kind and the path
of its records. It is written in YAML, under the key `datasets`:

    datasets:
      - id: courses
        kind: courses
        path: data/courses.json

Relative paths start at the directory of the manifest. A manifest that is not
there is an empty one.
-/

namespace Tabular

structure Entry where
  id : String
  kind : Kind
  path : String
  deriving DecidableEq, Repr

structure Manifest where
  entries : List Entry
  deriving DecidableEq, Repr

/-- Why there is no manifest. -/
inductive ManifestFault where
  | unreadable (fault : ReadFault)
  | malformed
  deriving DecidableEq, Repr

def ManifestFault.message : ManifestFault → String
  | unreadable fault => fault.message
  | malformed => "the manifest is malformed"

/-! ## From YAML -/

namespace Yaml.Node

/-- The text of a scalar, however it is written. -/
def text? : Node → Option String
  | scalar text _ => some text
  | _ => none

/-- The entries of a mapping with scalar keys; what was left out has none. -/
def fields? : Node → Option (List (String × Node))
  | mapping entries => entries.mapM fun e => e.1.text?.map fun key => (key, e.2)
  | scalar "" true => some []
  | _ => none

/-- The items of a sequence; what was left out has none. -/
def items? : Node → Option (List Node)
  | sequence items => some items
  | scalar "" true => some []
  | _ => none

end Yaml.Node

/-- The one value of a key; a key may not come twice. -/
def onlyField (key : String) (fields : List (String × Yaml.Node)) : Option (Option Yaml.Node) :=
  match fields.filter fun f => f.1 = key with
  | [] => some none
  | [f] => some (some f.2)
  | _ => none

/-- The text of a key that must be there once. -/
def textField (key : String) (fields : List (String × Yaml.Node)) : Option String := do
  let node ← onlyField key fields
  (← node).text?

/-- An entry of a manifest. Keys of another meaning are passed over. -/
def Entry.ofNode? (node : Yaml.Node) : Option Entry := do
  let fields ← node.fields?
  let id ← textField "id" fields
  let kind ← Kind.ofName? (← textField "kind" fields)
  let path ← textField "path" fields
  some ⟨id, kind, path⟩

namespace Manifest

def empty : Manifest := ⟨[]⟩

def ofNode? (node : Yaml.Node) : Option Manifest := do
  let fields ← node.fields?
  match ← onlyField "datasets" fields with
  | none => some empty
  | some list => do
    let items ← list.items?
    let entries ← items.mapM Entry.ofNode?
    some ⟨entries⟩

/-- The manifest with its paths seen from a directory. -/
def relativeTo (directory : String) (m : Manifest) : Manifest :=
  ⟨m.entries.map fun e => { e with path := Path.join directory e.path }⟩

def load (disk : Disk) (path : String) : Except ManifestFault Manifest :=
  if disk.has path then
    match disk.read path with
    | .error fault => .error (.unreadable fault)
    | .ok text =>
      match (Yaml.read text).bind ofNode? with
      | none => .error .malformed
      | some m => .ok (m.relativeTo (Path.parent path))
  else .ok empty

/-- Loads the datasets of some entries in turn, up to the first that fails. -/
def applyEntries (disk : Disk) : List Entry → Catalog → Outcome Unit
  | [], c => (.ok (), c)
  | e :: rest, c =>
    match c.addFrom e.id e.kind fun _ => disk.loadRecords e.path with
    | (.ok _, next) => applyEntries disk rest next
    | (.error error, next) => (.error error, next)

/-- Loads every dataset that a manifest lists. What was loaded before one fails
stays. -/
def apply (disk : Disk) (m : Manifest) (c : Catalog) : Outcome Unit :=
  applyEntries disk m.entries c

end Manifest

end Tabular
