import Tabular.Json.Reader
import Tabular.Yaml.Basic

/-!
# YAML scalars

A plain scalar ends where a comment, a colon or, inside brackets, a bracket or a
comma begins, and goes on over lines that are indented deeply enough. A quoted
scalar ends at its quotation mark. In both, the space between words that is
broken over lines is folded: one end of a line becomes a space, and of more than
one all but the first stay.
-/

namespace Tabular.Yaml

/-- The white space behind a word, until the next word shows what becomes of it. -/
inductive Gap where
  | none
  /-- Spaces on the line, last first. -/
  | spaces (text : List Char)
  /-- Ends of lines after the first, which may have been escaped. -/
  | lines (escaped : Bool) (more : Nat)

/-- What a gap becomes between two words. -/
def Gap.fold : Gap → List Char
  | none => []
  | spaces text => text.reverse
  | lines escaped more =>
    if more = 0 ∧ escaped = false then [' '] else List.replicate more '\n'

/-- A gap with one more space on the line. -/
def Gap.addSpace (c : Char) : Gap → Gap
  | none => spaces [c]
  | spaces text => spaces (c :: text)
  | lines escaped more => lines escaped more

/-- A gap with one more end of a line. -/
def Gap.addBreak : Gap → Gap
  | none | spaces _ => lines false 0
  | lines escaped more => lines escaped (more + 1)

/-- The characters with a gap and another character behind them, last first. -/
def extend (read : List Char) (gap : Gap) (c : Char) : List Char :=
  c :: (gap.fold.reverse ++ read)

/-- A character that is an indicator inside brackets. -/
def isBracketSign (c : Char) : Bool :=
  c = ',' || c = '[' || c = ']' || c = '{' || c = '}'

/-- Whether a plain scalar ends in front of a character, which follows a gap. -/
def endsPlain (inBrackets : Bool) (indent : Nat) (gap : Gap) (here : Cursor) : Bool :=
  let c := here.rest.headD ' '
  let afterGap := match gap with
    | .none => false
    | .spaces _ => c = '#'
    | .lines _ _ => here.atEnd || c = '#' || !inBrackets && here.column < indent
  afterGap || c = ':' && here.nextEndsWord || inBrackets && isBracketSign c

/-- The rest of a plain scalar. Lines after the first must begin at `indent` or
behind it, outside of brackets. -/
def plainFrom (inBrackets : Bool) (indent : Nat) (read : List Char) (gap : Gap) :
    List Char → Nat → Nat → Option (List Char × Cursor)
  | [], line, column => some (read, ⟨[], line, column⟩)
  | '\r' :: '\n' :: rest, line, _ =>
    plainFrom inBrackets indent read gap.addBreak rest (line + 1) 0
  | c :: rest, line, column =>
    if isBreak c then plainFrom inBrackets indent read gap.addBreak rest (line + 1) 0
    else if isSpace c then
      match gap with
      | .lines _ _ =>
        if c = '\t' && column < indent then none
        else plainFrom inBrackets indent read gap rest line (column + 1)
      | _ => plainFrom inBrackets indent read (gap.addSpace c) rest line (column + 1)
    else if endsPlain inBrackets indent gap ⟨c :: rest, line, column⟩ then
      some (read, ⟨c :: rest, line, column⟩)
    else if inBrackets && c = ':' && (rest.head?.any fun d => isBracketSign d || d = '?') then none
    else plainFrom inBrackets indent (extend read gap c) .none rest line (column + 1)

def Cursor.plain (inBrackets : Bool) (indent : Nat) (c : Cursor) : Option (Node × Cursor) :=
  (plainFrom inBrackets indent [] .none c.rest c.line c.column).map fun p =>
    (.scalar (String.ofList p.1.reverse) true, p.2)

/-- The rest of a scalar in single quotes. A doubled quote is one of its own. -/
def singleFrom (read : List Char) (gap : Gap) :
    List Char → Nat → Nat → Option (List Char × Cursor)
  | [], _, _ => none
  | '\'' :: '\'' :: rest, line, column =>
    singleFrom (extend read gap '\'') .none rest line (column + 2)
  | '\r' :: '\n' :: rest, line, _ => singleFrom read gap.addBreak rest (line + 1) 0
  | c :: rest, line, column =>
    if Cursor.atEnd ⟨c :: rest, line, column⟩ then none
    else if c = '\'' then some (gap.fold.reverse ++ read, ⟨rest, line, column + 1⟩)
    else if isBreak c then singleFrom read gap.addBreak rest (line + 1) 0
    else if isSpace c then singleFrom read (gap.addSpace c) rest line (column + 1)
    else singleFrom (extend read gap c) .none rest line (column + 1)

/-- The character of a one-letter escape. -/
def escapeLetter (c : Char) : Option Char :=
  match c with
  | '0' => some '\x00'
  | 'a' => some '\x07'
  | 'b' => some '\x08'
  | 't' | '\t' => some '\t'
  | 'n' => some '\n'
  | 'v' => some '\x0b'
  | 'f' => some '\x0c'
  | 'r' => some '\r'
  | 'e' => some '\x1b'
  | ' ' => some ' '
  | '"' => some '"'
  | '/' => some '/'
  | '\\' => some '\\'
  | 'N' => some '\x85'
  | '_' => some '\xa0'
  | 'L' => some '\u2028'
  | 'P' => some '\u2029'
  | _ => none

/-- The number of digits of a numeric escape. -/
def escapeDigits (c : Char) : Option Nat :=
  match c with
  | 'x' => some 2
  | 'u' => some 4
  | 'U' => some 8
  | _ => none

/-- The character of a number in hexadecimal digits. -/
def charOfHex (digits : List Char) : Option Char := do
  let n ← digits.foldlM (fun n c => (Json.Reader.hexValue c).map (n * 16 + ·)) 0
  if n.isValidChar then some (Char.ofNat n) else none

/-- The rest of a scalar in double quotes. The bound counts characters. -/
def doubleFrom : (bound : Nat) → (read : List Char) → Gap → Cursor → Option (List Char × Cursor)
  | 0, _, _, _ => none
  | bound + 1, read, gap, here =>
    if here.atEnd then none else
    match here.rest with
    | [] => none
    | '\r' :: '\n' :: rest => doubleFrom bound read gap.addBreak ⟨rest, here.line + 1, 0⟩
    | '"' :: _ => some (gap.fold.reverse ++ read, here.advance)
    | '\\' :: '\r' :: '\n' :: rest =>
      doubleFrom bound (gap.fold.reverse ++ read) (.lines true 0) ⟨rest, here.line + 1, 0⟩
    | '\\' :: c :: rest =>
      if isBreak c then
        doubleFrom bound (gap.fold.reverse ++ read) (.lines true 0) ⟨rest, here.line + 1, 0⟩
      else
        match escapeLetter c, escapeDigits c with
        | some x, _ =>
          doubleFrom bound (extend read gap x) .none ⟨rest, here.line, here.column + 2⟩
        | none, some n =>
          if rest.length < n then none else do
            let x ← charOfHex (rest.take n)
            doubleFrom bound (extend read gap x) .none
              ⟨rest.drop n, here.line, here.column + 2 + n⟩
        | none, none => none
    | c :: rest =>
      if isBreak c then doubleFrom bound read gap.addBreak ⟨rest, here.line + 1, 0⟩
      else if isSpace c then doubleFrom bound read (gap.addSpace c) here.advance
      else doubleFrom bound (extend read gap c) .none here.advance

/-- A quoted scalar, from its opening quote. -/
def Cursor.quoted (c : Cursor) : Option (Node × Cursor) :=
  let inside := c.advance
  let text := match c.rest with
    | '\'' :: _ => singleFrom [] .none inside.rest inside.line inside.column
    | _ => doubleFrom (inside.rest.length + 1) [] .none inside
  text.map fun p => (.scalar (String.ofList p.1.reverse) false, p.2)

end Tabular.Yaml
