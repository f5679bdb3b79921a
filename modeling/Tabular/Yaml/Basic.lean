/-!
# YAML values and places in a YAML text

The values are scalars, sequences and mappings. Of a scalar it is kept whether
it was written plainly, since only a plain empty scalar stands for nothing. A
`Cursor` is what is left of a text with the line and the column at which it
begins, because indentation decides what belongs together.
-/

namespace Tabular.Yaml

inductive Node where
  | scalar (text : String) (plain : Bool)
  | sequence (items : List Node)
  | mapping (entries : List (Node × Node))
  deriving Inhabited

/-- What stands where a value is left out. -/
def Node.nothing : Node := .scalar "" true

/-- The rest of a text and where it begins, counted from zero. -/
structure Cursor where
  rest : List Char
  line : Nat
  column : Nat

/-- A character that ends a line. -/
def isBreak (c : Char) : Bool :=
  c = '\n' || c = '\r' || c = '\x85' || c = '\u2028' || c = '\u2029'

def isSpace (c : Char) : Bool := c = ' ' || c = '\t'

/-- Nothing, a space or the end of a line stands at the front. -/
def endsWord : List Char → Bool
  | [] => true
  | c :: _ => isSpace c || isBreak c

/-- A character that may occur in a text. -/
def isAllowed (c : Char) : Bool :=
  let n := c.toNat
  n = 0x09 || n = 0x0A || n = 0x0D || 0x20 ≤ n && n ≤ 0x7E || n = 0x85 ||
    0xA0 ≤ n && n ≤ 0xFFFD || 0x10000 ≤ n

namespace Cursor

/-- The cursor behind the next character, which is on the line. -/
def advance (c : Cursor) : Cursor := ⟨c.rest.tail, c.line, c.column + 1⟩

/-- Whether a character that ends a word follows the next one. -/
def nextEndsWord (c : Cursor) : Bool := endsWord c.rest.tail

/-- Whether a mark of three equal characters opens the line here. -/
def atMark (mark : Char) (c : Cursor) : Bool :=
  c.column = 0 && c.rest.take 3 == [mark, mark, mark] && endsWord (c.rest.drop 3)

/-- Whether the document ends here: at the end of the text or at a mark. -/
def atEnd (c : Cursor) : Bool := c.rest.isEmpty || c.atMark '-' || c.atMark '.'

/-- Whether `sign` stands here as an indicator, with a blank behind it. -/
def atSign (sign : Char) (c : Cursor) : Bool := c.rest.head? == some sign && c.nextEndsWord

end Cursor

/-- Passes over spaces, comments and ends of lines. Tabs are passed over where
`tabs` says so, and on further lines inside brackets. -/
def skipFrom (inBrackets : Bool) : (tabs comment : Bool) → List Char → Nat → Nat → Cursor
  | _, _, [], line, column => ⟨[], line, column⟩
  | _, _, '\r' :: '\n' :: rest, line, _ =>
    skipFrom inBrackets inBrackets false rest (line + 1) 0
  | tabs, comment, c :: rest, line, column =>
    if isBreak c then skipFrom inBrackets inBrackets false rest (line + 1) 0
    else if comment then skipFrom inBrackets tabs true rest line (column + 1)
    else if c = ' ' || c = '\t' && tabs then skipFrom inBrackets tabs false rest line (column + 1)
    else if c = '#' then skipFrom inBrackets tabs true rest line (column + 1)
    else ⟨c :: rest, line, column⟩

def Cursor.skip (tabs : Bool) (c : Cursor) : Cursor :=
  skipFrom false tabs false c.rest c.line c.column

def Cursor.skipInBrackets (c : Cursor) : Cursor :=
  skipFrom true true false c.rest c.line c.column

end Tabular.Yaml
