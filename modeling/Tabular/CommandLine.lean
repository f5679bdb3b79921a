import Tabular.Manifest
import Tabular.Session

/-!
# The command line

The program loads the datasets of a manifest and then answers one query, lists
what is loaded, or holds a session. What it prints and its exit code are a
function of the arguments, the input and the files.

The log is left out: the lines on standard output that tell, each with its time,
which dataset has been loaded. They stand in front of what is printed here.
-/

namespace Tabular

/-- What to do with the loaded datasets. -/
inductive Task where
  | query (text : String)
  | list
  | session
  deriving DecidableEq, Repr

structure Arguments where
  manifest : String
  task : Task
  deriving DecidableEq, Repr

namespace Arguments

def defaultManifest : String := "insight.yaml"

/-- Whether an argument is an option and not a value. -/
def isOption (argument : String) : Bool :=
  argument.toList.head? == some '-' && argument != "-"

/-- What an argument has behind a beginning. -/
def behind? (beginning argument : String) : Option String :=
  if beginning.toList.isPrefixOf argument.toList then
    some (String.ofList (argument.toList.drop beginning.length))
  else none

/-- The value that an option carries within itself. -/
def attachedValue? (argument : String) : Option String :=
  match behind? "--manifest=" argument, behind? "-m=" argument, behind? "-m" argument with
  | some value, _, _ => some value
  | none, some value, _ => some value
  | none, none, some value => if value.isEmpty then none else some value
  | none, none, none => none

/-- The task of a command and what follows it. -/
def task? : List String → Option Task
  | ["list"] => some .list
  | ["repl"] => some .session
  | ["query", "--", text] => some (.query text)
  | ["query", text] => if isOption text then none else some (.query text)
  | _ => none

/-- The arguments with a manifest that is given. -/
def withManifest? (path : String) (rest : List String) : Option Arguments :=
  if path.isEmpty then none else (task? rest).map fun task => ⟨path, task⟩

/-- Reads the arguments: a manifest, if one is given, and a command. -/
def ofList? : List String → Option Arguments
  | [] => none
  | first :: rest =>
    if first = "--manifest" || first = "-m" then
      match rest with
      | path :: rest => if isOption path then none else withManifest? path rest
      | [] => none
    else
      match attachedValue? first with
      | some path => withManifest? path rest
      | none => (task? (first :: rest)).map fun task => ⟨defaultManifest, task⟩

end Arguments

/-- What a run of the program leaves. -/
structure Report where
  code : Nat
  output : String
  errors : String
  deriving DecidableEq, Repr

namespace CommandLine

def usage : String := unlines [
  "error: the arguments do not fit",
  "",
  "Usage: insight [--manifest <MANIFEST>] <query <QUERY>|list|repl>"]

/-- A cause with its number. Its further lines are indented like its first. -/
def numberedCause (number : Nat) (message : String) : String :=
  let indented := message.toList.flatMap fun c =>
    if c = '\n' then '\n' :: List.replicate 7 ' ' else [c]
  s!"    {number}: " ++ String.ofList indented

/-- The causes of an error, behind a blank line. -/
def causesText (causes : List String) : String :=
  if causes.isEmpty then ""
  else "\n" ++ unlines ("Caused by:" ::
    (List.range causes.length).zipWith numberedCause causes)

def failure (e : Error) : String := unlines ["Error: " ++ e.message] ++ causesText e.causes

/-- The hint of an error, on a line of its own. -/
def hintLine (e : Error) : String :=
  match e.hint with
  | some hint => unlines ["hint: " ++ hint]
  | none => ""

def answerOnce [Searcher] (c : Catalog) (text : String) : Report :=
  match c.queryText text with
  | .ok rows => ⟨0, printedRows rows, ""⟩
  | .error e => ⟨1, "", hintLine e ++ failure e⟩

def perform [Searcher] (c : Catalog) (input : String) : Task → Report
  | .query text => answerOnce c text
  | .list => ⟨0, c.listing, ""⟩
  | .session => ⟨0, Session.transcript c input, ""⟩

/-- The datasets of a manifest, or the report that they cannot be loaded. -/
def prepare (disk : Disk) (manifest : String) : Except Report Catalog :=
  match Manifest.load disk manifest with
  | .error fault => .error ⟨1, "", unlines ["Error: " ++ fault.message]⟩
  | .ok m =>
    match m.apply disk .empty with
    | (.ok (), c) => .ok c
    | (.error e, _) => .error ⟨1, "", failure e⟩

def run [Searcher] (disk : Disk) (arguments : List String) (input : String) : Report :=
  match Arguments.ofList? arguments with
  | none => ⟨2, "", usage⟩
  | some a =>
    match prepare disk a.manifest with
    | .error report => report
    | .ok c => perform c input a.task

end CommandLine

end Tabular
