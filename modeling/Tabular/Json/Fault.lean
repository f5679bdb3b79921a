import Tabular.Json.Printer
import Tabular.Text.Order
import Tabular.Text.Quoted

/-!
# What is wrong with a JSON text, and where

A reader that fails leaves a `Failure`: the fault, the characters it has not
read, and how many bytes of those the report includes, because a byte that is
refused counts as seen. The position follows from the length of what was read:
lines are counted from one, and a column is the number of bytes on its line up
to there.
-/

namespace Tabular.Json

/-- What was found where another kind of value is wanted. -/
inductive Found where
  | number (value : Number)
  | bool (value : Bool)
  | string (value : String)
  | null
  | list
  | object
  deriving DecidableEq, Repr

def Found.text : Found → String
  | number (.integer i) => s!"integer `{i}`"
  | number (.real x h) => "floating point `" ++ String.ofList (Number.real x h).text ++ "`"
  | bool b => s!"boolean `{b}`"
  | string s => "string " ++ Text.quoted s
  | null => "null"
  | list => "sequence"
  | object => "map"

/-- The ways in which a JSON text can be wrong. -/
inductive Fault where
  | valueEnds
  | stringEnds
  | listEnds
  | objectEnds
  | valueExpected
  | wordExpected
  | invalidNumber
  | numberOutOfRange
  | controlCharacter
  | invalidEscape
  | loneSurrogate
  | surrogateEnds
  | listSeparatorExpected
  | objectSeparatorExpected
  | colonExpected
  | keyExpected
  | trailingComma
  | trailingCharacters
  | tooDeep
  | wrongKind (found : Found) (wanted : String)
  | unknownName (name : String) (known : List String)
  deriving DecidableEq, Repr

def backquoted (name : String) : String := "`" ++ name ++ "`"

def Fault.text : Fault → String
  | valueEnds => "EOF while parsing a value"
  | stringEnds => "EOF while parsing a string"
  | listEnds => "EOF while parsing a list"
  | objectEnds => "EOF while parsing an object"
  | valueExpected => "expected value"
  | wordExpected => "expected ident"
  | invalidNumber => "invalid number"
  | numberOutOfRange => "number out of range"
  | controlCharacter => "control character (\\u0000-\\u001F) found while parsing a string"
  | invalidEscape => "invalid escape"
  | loneSurrogate => "lone leading surrogate in hex escape"
  | surrogateEnds => "unexpected end of hex escape"
  | listSeparatorExpected => "expected `,` or `]`"
  | objectSeparatorExpected => "expected `,` or `\x7d`"
  | colonExpected => "expected `:`"
  | keyExpected => "key must be a string"
  | trailingComma => "trailing comma"
  | trailingCharacters => "trailing characters"
  | tooDeep => "recursion limit exceeded"
  | wrongKind found wanted => "invalid type: " ++ found.text ++ ", expected " ++ wanted
  | unknownName name known =>
    "unknown variant " ++ backquoted name ++ ", expected " ++
      String.intercalate " or " (known.map backquoted)

structure Position where
  /-- The line, from one. -/
  line : Nat
  /-- The bytes of the line up to the place. -/
  column : Nat
  deriving DecidableEq, Repr

namespace Position

def start : Position := ⟨1, 0⟩

/-- The place one byte further: a line feed opens the next line. -/
def next (p : Position) (byte : UInt8) : Position :=
  if byte = 10 then ⟨p.line + 1, 0⟩ else ⟨p.line, p.column + 1⟩

/-- The place behind some bytes. -/
def after (bytes : List UInt8) : Position := bytes.foldl next start

end Position

/-- The UTF-8 bytes of characters. -/
def utf8 (s : List Char) : List UInt8 := s.flatMap String.utf8EncodeChar

/-- Where and why a reader stopped. -/
structure Failure where
  fault : Fault
  /-- The characters that were not read. -/
  rest : List Char
  /-- How many bytes of the rest belong to the report. -/
  ahead : Nat
  deriving DecidableEq, Repr

/-- A fault of a text and its place. -/
structure Complaint where
  fault : Fault
  position : Position
  deriving DecidableEq, Repr

/-- The place of a failure in the text that was to be read. -/
def Failure.complaint (text : List Char) (f : Failure) : Complaint :=
  let read := text.take (text.length - f.rest.length)
  ⟨f.fault, .after (utf8 read ++ (utf8 (f.rest.take f.ahead)).take f.ahead)⟩

def Complaint.message (c : Complaint) : String :=
  s!"{c.fault.text} at line {c.position.line} column {c.position.column}"

end Tabular.Json
