import Tabular.Yaml.Scalar

/-!
# Reading YAML

A text has one document: block mappings and sequences, which indentation holds
together, bracketed ones, and scalars. Directives, tags, anchors, block scalars
and keys behind a question mark are refused. Every step takes at least one
character or goes one level down at a place, so a bound of twice the length of
the text is never met.
-/

namespace Tabular.Yaml

/-- The characters besides brackets that begin something else than a plain
scalar. -/
def reservedSigns : List Char := ['#', '&', '*', '!', '|', '>', '\'', '"', '%', '@', '`']

/-- Whether a plain scalar can begin here. A dash, and outside of brackets a
colon or a question mark, can if more of a word follows. -/
def Cursor.startsPlain (inBrackets : Bool) (c : Cursor) : Bool :=
  match c.rest with
  | [] => false
  | first :: _ =>
    if first = '-' then !c.nextEndsWord
    else if first = '?' || first = ':' then !inBrackets && !c.nextEndsWord
    else !endsWord c.rest && !isBracketSign first && !reservedSigns.contains first

def Cursor.scalar (inBrackets : Bool) (indent : Nat) (c : Cursor) : Option (Node × Cursor) :=
  if c.rest.head? == some '"' || c.rest.head? == some '\'' then c.quoted
  else if c.startsPlain inBrackets then c.plain inBrackets indent
  else none

/-- The cursor at a token inside brackets, unless the document ends there. -/
def Cursor.token (c : Cursor) : Option Cursor :=
  let next := c.skipInBrackets
  if next.atEnd then none else some next

mutual

def bracketed : Nat → Cursor → Option (Node × Cursor)
  | 0, _ => none
  | bound + 1, c =>
    match c.rest with
    | '[' :: _ => (itemsFrom bound [] c.advance).map fun p => (.sequence p.1, p.2)
    | '{' :: _ => (entriesFrom bound [] c.advance).map fun p => (.mapping p.1, p.2)
    | _ => c.scalar true 0

/-- What stands behind the colon of a key in brackets: nothing if `close` or a
comma follows. -/
def bracketedValue (close : Char) : Nat → Cursor → Option (Node × Cursor)
  | 0, _ => none
  | bound + 1, c => do
    let here ← c.token
    if here.rest.head? == some ',' || here.rest.head? == some close then some (.nothing, here)
    else bracketed bound here

/-- The items of a sequence in brackets. One with a colon is a mapping of its
own. -/
def itemsFrom : Nat → List Node → Cursor → Option (List Node × Cursor)
  | 0, _, _ => none
  | bound + 1, read, c => do
    let here ← c.token
    if here.rest.head? == some ']' then some (read.reverse, here.advance)
    else
      let (first, behind) ← bracketed bound here
      let next ← behind.token
      let (item, behind) ←
        if next.rest.head? == some ':' && next.line == here.line then
          (bracketedValue ']' bound next.advance).map fun p => (Node.mapping [(first, p.1)], p.2)
        else some (first, next)
      let next ← behind.token
      if next.rest.head? == some ',' then itemsFrom bound (item :: read) next.advance
      else if next.rest.head? == some ']' then some ((item :: read).reverse, next.advance)
      else none

/-- The entries of a mapping in braces. A key without a colon has no value. -/
def entriesFrom :
    Nat → List (Node × Node) → Cursor → Option (List (Node × Node) × Cursor)
  | 0, _, _ => none
  | bound + 1, read, c => do
    let here ← c.token
    if here.rest.head? == some '}' then some (read.reverse, here.advance)
    else
      let (key, behind) ← bracketed bound here
      let next ← behind.token
      let (value, behind) ←
        if next.rest.head? == some ':' && next.line == here.line then
          bracketedValue '}' bound next.advance
        else some (Node.nothing, next)
      let next ← behind.token
      if next.rest.head? == some ',' then entriesFrom bound ((key, value) :: read) next.advance
      else if next.rest.head? == some '}' then
        some (((key, value) :: read).reverse, next.advance)
      else none

end

/-- A scalar or a bracketed value in a block whose lines begin at `indent`. -/
def inlineNode (indent : Nat) (c : Cursor) : Option (Node × Cursor) :=
  if c.rest.head? == some '[' || c.rest.head? == some '{' then
    bracketed (2 * c.rest.length + 2) c
  else c.scalar false indent

/-- The cursor behind the colon that makes the node between two cursors a key:
it stands on the line on which the node begins. -/
def behindColon (start behind : Cursor) : Option Cursor :=
  let next := behind.skip true
  if next.line == start.line && next.atSign ':' then some next.advance else none

/-- A key of a block mapping, with the cursor behind its colon. -/
def blockKey (indent : Nat) (c : Cursor) : Option (Node × Cursor) :=
  if c.atSign ':' then some (.nothing, c.advance)
  else do
    let (key, behind) ← inlineNode indent c
    let next ← behindColon c behind
    some (key, next)

mutual

/-- A value in a block, at a token that stands behind the column of the block
around it. Where `compact` does not hold, on the line of a key, the value is no
block itself. -/
def block (compact : Bool) (indent : Nat) : Nat → Cursor → Option (Node × Cursor)
  | 0, _ => none
  | bound + 1, c =>
    if c.atSign '-' then
      if compact then
        (sequenceFrom c.column false bound [] c).map fun p => (.sequence p.1, p.2)
      else none
    else if c.atSign ':' then
      if compact then
        (mappingFrom c.column bound [] .nothing c.advance).map fun p => (.mapping p.1, p.2)
      else none
    else do
      let (node, behind) ← inlineNode indent c
      match behindColon c behind with
      | none => some (node, behind)
      | some next =>
        if compact then
          (mappingFrom c.column bound [] node next).map fun p => (.mapping p.1, p.2)
        else none

/-- The items of a block sequence in a column, from a dash on. One that shares
its column with the mapping around it ends at the next key. -/
def sequenceFrom (column : Nat) (shared : Bool) :
    Nat → List Node → Cursor → Option (List Node × Cursor)
  | 0, _, _ => none
  | bound + 1, read, c => do
    let start := c.advance
    let here := start.skip false
    let (item, behind) ←
      if here.atEnd || here.column ≤ column then some (Node.nothing, here)
      else block true (column + 1) bound here
    let next := behind.skip true
    let done := some ((item :: read).reverse, next)
    if next.atEnd || next.column < column then done
    else if next.column = column then
      if next.atSign '-' then sequenceFrom column shared bound (item :: read) next
      else if shared then done
      else none
    else none

/-- The entries of a block mapping in a column, from behind the colon of a key
on. -/
def mappingFrom (column : Nat) : Nat → List (Node × Node) → Node → Cursor →
    Option (List (Node × Node) × Cursor)
  | 0, _, _, _ => none
  | bound + 1, read, key, c => do
    let here := c.skip true
    let (value, behind) ←
      if here.atEnd then some (Node.nothing, here)
      else if here.line == c.line then block false (column + 1) bound here
      else if here.column = column && here.atSign '-' then
        (sequenceFrom column true bound [] here).map fun p => (Node.sequence p.1, p.2)
      else if here.column ≤ column then some (Node.nothing, here)
      else block true (column + 1) bound here
    let next := behind.skip true
    let done := some (((key, value) :: read).reverse, next)
    if next.atEnd || next.column < column then done
    else if next.column = column then do
      let (nextKey, rest) ← blockKey (column + 1) next
      mappingFrom column bound ((key, value) :: read) nextKey rest
    else none

end

/-- Passes over marks that end a document; only blanks and comments may follow
one on its line. -/
def onlyEndMarks : Nat → Cursor → Bool
  | 0, _ => false
  | bound + 1, c =>
    if c.rest.isEmpty then true
    else if c.atMark '.' then
      let start : Cursor := ⟨c.rest.drop 3, c.line, 3⟩
      let next := start.skip true
      (next.rest.isEmpty || next.line != c.line) && onlyEndMarks bound next
    else false

/-- The value of a text with at most one document; nothing for none. -/
def read (text : String) : Option Node :=
  let chars := match text.toList with
    | '\ufeff' :: rest => rest
    | chars => chars
  let bound := 2 * chars.length + 2
  if !chars.all isAllowed then none
  else
    let first := (Cursor.mk chars 0 0).skip false
    if first.rest.isEmpty then some .nothing
    else
      let marked := first.atMark '-'
      let start : Cursor :=
        if marked then Cursor.skip true ⟨first.rest.drop 3, first.line, 3⟩ else first
      let compact := !marked || start.line != first.line
      let root : Option (Node × Cursor) :=
        if start.atEnd then (if marked then some (.nothing, start) else none)
        else block compact 0 bound start
      match root with
      | none => none
      | some (node, behind) =>
        if onlyEndMarks bound (behind.skip true) then some node else none

end Tabular.Yaml
