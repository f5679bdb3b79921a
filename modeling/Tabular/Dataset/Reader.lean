import Tabular.Dataset
import Tabular.Disk
import Tabular.Json.Reader

/-!
# Reading records, values and kinds

The records of a dataset are read from the JSON text of a list of objects whose
members are texts and numbers. The text is read as a whole first: a fault in it,
or an item that is no object, is reported where it stands. Only then are the
members looked at, record by record and by ascending key.
-/

namespace Tabular

namespace Json.Reader

/-- The failure at a value of another kind than the one wanted. A list or an
object is refused at its bracket, any other value behind its end. -/
def mismatch (wanted : String) (s : List Char) : Failure :=
  match s with
  | [] => ⟨.valueEnds, [], 0⟩
  | c :: r =>
    let report (found : Found) (rest : List Char) : Failure := ⟨.wrongKind found wanted, rest, 0⟩
    if c = 'n' then
      match word ['u', 'l', 'l'] r with
      | .ok t => report .null t.1
      | .error e => e
    else if c = 't' then
      match word ['r', 'u', 'e'] r with
      | .ok t => report (.bool true) t.1
      | .error e => e
    else if c = 'f' then
      match word ['a', 'l', 's', 'e'] r with
      | .ok t => report (.bool false) t.1
      | .error e => e
    else if c = '"' then
      match characters r with
      | .ok t => report (.string t.value) t.rest
      | .error e => e
    else if c = '-' ∨ c.isDigit then
      match number (c :: r) with
      | .ok t => report (.number t.value) t.rest
      | .error e => e
    else if c = '[' then report .list (c :: r)
    else if c = '{' then report .object (c :: r)
    else ⟨.valueExpected, c :: r, 1⟩

/-- An object, its members of any value. It stands in a list, so one level less
is left for what is inside. -/
def record : Reader (List (String × Json)) := fun s =>
  match hs : skip s with
  | '{' :: r => (members (value (deepest - 2)) r).map
      (Taken.widen (Nat.le_of_lt (length_lt_of_skip_eq hs)))
  | rest => .error (mismatch "a map" rest)

def records : Reader (List (List (String × Json))) := fun s =>
  match hs : skip s with
  | '[' :: r => (items record r).map
      (Taken.widen (Nat.le_of_lt (length_lt_of_skip_eq hs)))
  | rest => .error (mismatch "a sequence" rest)

end Json.Reader

/-! ## Records -/

/-- What is wrong with the text of some records. -/
inductive RecordsFault where
  | text (complaint : Json.Complaint)
  /-- A member that is neither a text nor a number, as it is written. -/
  | member (record : Nat) (key : String) (written : String)
  deriving DecidableEq, Repr

def RecordsFault.message : RecordsFault → String
  | text c => c.message
  | member record key written =>
    s!"record {record} field '{key}' must be a string or number, got {written}"

/-- The value of a text or a number. -/
def Value.ofJson? : Json → Option Value
  | .string s => some (.text s)
  | .number n => some (.number n.toBinary64)
  | _ => none

/-- The fields of a record from the members of an object, or the first member
that is no field. -/
def fieldsOfMembers : List (String × Json) → Except (String × Json) (List (String × Value))
  | [] => .ok []
  | (key, json) :: rest =>
    match Value.ofJson? json with
    | some value => do
      let fields ← fieldsOfMembers rest
      .ok ((key, value) :: fields)
    | none => .error (key, json)

/-- The records of a list of objects, counted from `start`. -/
def recordsOfObjects (start : Nat) :
    List (List (String × Json)) → Except RecordsFault (List Record)
  | [] => .ok []
  | object :: rest =>
    match fieldsOfMembers object with
    | .ok fields => do
      let records ← recordsOfObjects (start + 1) rest
      .ok (Dictionary.ofList fields :: records)
    | .error (key, json) => .error (.member start key json.compact)

/-- Reads records from the text of a JSON list. -/
def readRecords (text : String) : Except RecordsFault (List Record) :=
  match Json.readAll Json.Reader.records text with
  | .error complaint => .error (.text complaint)
  | .ok objects => recordsOfObjects 0 objects

/-! ## Sources of records -/

/-- Why a source has no records to load. -/
inductive LoadFault where
  | unreadable (path : String) (fault : ReadFault)
  | malformed (path : String) (fault : RecordsFault)
  /-- What a source that is no file reports, and the messages of what caused it. -/
  | reported (message : String) (causes : List String)
  deriving DecidableEq, Repr

/-- The messages of a failed load, from the outcome to its reason. -/
def LoadFault.chain : LoadFault → List String
  | unreadable path fault => ["Failed to read " ++ Text.quoted path, fault.message]
  | malformed path fault => ["Failed to parse records in " ++ Text.quoted path, fault.message]
  | reported message causes => message :: causes

def LoadFault.message : LoadFault → String
  | unreadable path _ => "Failed to read " ++ Text.quoted path
  | malformed path _ => "Failed to parse records in " ++ Text.quoted path
  | reported message _ => message

def Disk.loadRecords (disk : Disk) (path : String) : Except LoadFault (List Record) :=
  match disk.read path with
  | .error fault => .error (.unreadable path fault)
  | .ok text =>
    match readRecords text with
    | .error fault => .error (.malformed path fault)
    | .ok records => .ok records

/-! ## Single values and kinds -/

/-- What is wrong with the text of a field value. -/
inductive ValueFault where
  | text (complaint : Json.Complaint)
  /-- The text has a value that is neither a text nor a number. -/
  | neither
  deriving DecidableEq, Repr

def ValueFault.message : ValueFault → String
  | text c => c.message
  | neither => "data did not match any variant of untagged enum Value"

/-- Reads a field value from JSON text. That a value is neither a text nor a
number is found before what follows it is looked at. -/
def Value.read (text : String) : Except ValueFault Value :=
  match Json.Reader.value Json.deepest text.toList with
  | .error e => .error (.text (e.complaint text.toList))
  | .ok taken =>
    match ofJson? taken.value with
    | none => .error .neither
    | some value =>
      match Json.finish text value taken.rest with
      | .error c => .error (.text c)
      | .ok value => .ok value

namespace Json.Reader

/-- The name of a kind, behind its quotation mark. -/
def kindName : Reader Kind := fun s =>
  match characters s with
  | .error e => .error e
  | .ok name =>
    match Kind.ofName? name.value with
    | some kind => .ok (name.map fun _ => kind)
    | none => stop (.unknownName name.value (Kind.all.map Kind.name)) name.rest

/-- The closing of an object with a kind as its only key: null and a brace. -/
def nullThenBrace (s : List Char) : Except Failure { r : List Char // r.length < s.length } :=
  match hs : skip s with
  | 'n' :: r =>
    match word ['u', 'l', 'l'] r with
    | .error e => .error e
    | .ok t =>
      match hb : skip t.1 with
      | '}' :: u => .ok ⟨u, by
          have := length_lt_of_skip_eq hs
          have := length_lt_of_skip_eq hb
          have := t.2
          omega⟩
      | [] => stop .objectEnds []
      | c :: u => stop .valueExpected (c :: u)
  | rest => .error (mismatch "unit" rest)

/-- A kind: its name, or an object that binds its name to null. -/
def kind : Reader Kind := fun s =>
  match hs : skip s with
  | '"' :: r => (kindName r).map (Taken.widen (Nat.le_of_lt (length_lt_of_skip_eq hs)))
  | '{' :: r =>
    match hk : skip r with
    | '"' :: t =>
      match kindName t with
      | .error e => .error e
      | .ok ⟨kind, rest, hrest⟩ =>
        match hc : skip rest with
        | ':' :: u =>
          (nullThenBrace u).map fun v => ⟨kind, v.1, by
            have := length_lt_of_skip_eq hs
            have := length_lt_of_skip_eq hk
            have := length_lt_of_skip_eq hc
            have := v.2
            omega⟩
        | [] => stop .objectEnds []
        | c :: u => refuse .colonExpected (c :: u)
    | rest => .error (mismatch "variant identifier" rest)
  | [] => stop .valueEnds []
  | c :: r => refuse .valueExpected (c :: r)

end Json.Reader

def Kind.read (text : String) : Except Json.Complaint Kind :=
  Json.readAll Json.Reader.kind text

end Tabular
