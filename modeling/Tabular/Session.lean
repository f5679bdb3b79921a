import Tabular.Catalog

/-!
# The interactive session

A session reads queries and commands line by line. What it prints for a line is
its `block`, which depends on the line and the loaded datasets alone; a session
changes neither. It ends with the input or with a line that asks for the end.
-/

namespace Tabular

/-- What a line of a session asks for. -/
inductive Command where
  | nothing
  | leave
  | list
  | help
  | query (text : String)
  deriving DecidableEq, Repr

/-- The command of a line. Blank characters around it and the case of a command
word do not matter. No letter outside of ASCII turns into one of these words'
letters alone, so folding the ASCII letters is enough. -/
def Command.ofLine (line : String) : Command :=
  let text := Text.trim line
  let word := String.ofList (text.toList.map Char.toLower)
  if text.isEmpty then nothing
  else if word = "exit" || word = "quit" || word = "\\q" then leave
  else if word = "list" || word = "\\l" then list
  else if word = "help" || word = "\\h" then help
  else query text

/-- Lines, each with its end. -/
def unlines (lines : List String) : String := String.join (lines.map (· ++ "\n"))

def Catalog.listing (c : Catalog) : String :=
  if c.list.isEmpty then unlines ["No datasets loaded."]
  else unlines ("Datasets:" :: c.list.map fun i => s!"  {i.id} ({i.kind.name}, {i.size} rows)")

def printedRows (rows : List Row) : String := unlines [(Row.listToJson rows).pretty]

namespace Session

def banner : String :=
  unlines ["insight Interactive Shell", "Type 'help' for commands, 'exit' to quit.", ""]

def prompt : String := "iql> "

def farewell : String := unlines ["Goodbye!"]

def helpText : String := unlines [
  "Enter one JSON query per line:",
  "  \x7b\"WHERE\": \x7b\"GT\": \x7b\"courses_avg\": 95\x7d\x7d,",
  "   \"OPTIONS\": \x7b\"COLUMNS\": [\"courses_dept\", \"courses_avg\"], \"ORDER\": \"courses_avg\"\x7d\x7d",
  "",
  "Special:",
  "  list, \\l  - List loaded datasets",
  "  help, \\h  - Show this help",
  "  exit, \\q  - Exit the shell"]

def complaint (e : Error) : String :=
  unlines (("Error: " ++ e.message) :: match e.hint with
    | some hint => ["Hint: " ++ hint]
    | none => [])

def answer : Except Error (List Row) → String
  | .ok rows => printedRows rows ++ unlines [s!"({rows.length} row(s))"]
  | .error e => complaint e

def block [Searcher] (c : Catalog) : Command → String
  | .nothing | .leave => ""
  | .list => c.listing
  | .help => helpText
  | .query text => answer (c.queryText text) ++ "\n"

/-- What follows the banner: a prompt and a block for each line up to the end. -/
def blocks [Searcher] (c : Catalog) : List String → String
  | [] => prompt
  | line :: rest =>
    match Command.ofLine line with
    | .leave => prompt
    | command => prompt ++ (block c command ++ blocks c rest)

/-- The lines of a text, without their ends. Behind the last end there is a line
only if something stands there. -/
def lines (input : String) : List String :=
  let parts := linesFrom [] input.toList
  parts.map String.ofList
where
  /-- The lines, the characters of the current one being kept last first. -/
  linesFrom (current : List Char) : List Char → List (List Char)
    | [] => if current.isEmpty then [] else [current.reverse]
    | c :: rest =>
      if c = '\n' then current.reverse :: linesFrom [] rest else linesFrom (c :: current) rest

/-- All that a session prints for an input. -/
def transcript [Searcher] (c : Catalog) (input : String) : String :=
  banner ++ (blocks c (lines input) ++ farewell)

end Session

end Tabular
