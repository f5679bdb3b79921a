import Tabular.Json.Basic

/-!
# Writing JSON

One writer serves both arrangements: `Layout` says what stands where a line may
end and after a key. In a text the quotation mark, the backslash and the control
characters below U+0020 are escaped, and nothing else.
-/

namespace Tabular.Json

/-- The digit of a number below sixteen, in lower case. -/
def hexDigit (n : Nat) : Char := Nat.digitChar n

/-- A character inside quotation marks. -/
def escape (c : Char) : List Char :=
  if c = '"' then ['\\', '"']
  else if c = '\\' then ['\\', '\\']
  else if c = '\x08' then ['\\', 'b']
  else if c = '\x0c' then ['\\', 'f']
  else if c = '\n' then ['\\', 'n']
  else if c = '\r' then ['\\', 'r']
  else if c = '\t' then ['\\', 't']
  else if c.toNat < 0x20 then
    ['\\', 'u', '0', '0', hexDigit (c.toNat / 16), hexDigit (c.toNat % 16)]
  else [c]

/-- A text in quotation marks. -/
def quoted (s : String) : List Char :=
  '"' :: (s.toList.flatMap escape ++ ['"'])

/-- What the writer puts between the tokens of a value. -/
structure Layout where
  /-- The end of a line and the indentation of the next, at a nesting depth. -/
  line : Nat → List Char
  /-- What separates a key from its value. -/
  colon : List Char

/-- Nothing between tokens. -/
def Layout.compact : Layout := ⟨fun _ => [], [':']⟩

/-- An item a line, indented by two spaces for each level. -/
def Layout.pretty : Layout := ⟨fun depth => '\n' :: List.replicate (2 * depth) ' ', [':', ' ']⟩

mutual

/-- A value, at a nesting depth. Empty lists and objects stay on one line. -/
def write (l : Layout) (depth : Nat) : Json → List Char
  | null => ['n', 'u', 'l', 'l']
  | bool true => ['t', 'r', 'u', 'e']
  | bool false => ['f', 'a', 'l', 's', 'e']
  | number n => n.text
  | string s => quoted s
  | array [] => ['[', ']']
  | array (item :: rest) =>
    '[' :: (l.line (depth + 1) ++ (write l (depth + 1) item ++
      (writeItems l (depth + 1) rest ++ (l.line depth ++ [']']))))
  | object [] => ['{', '}']
  | object (member :: rest) =>
    '{' :: (l.line (depth + 1) ++ (quoted member.1 ++ (l.colon ++ (write l (depth + 1) member.2 ++
      (writeMembers l (depth + 1) rest ++ (l.line depth ++ ['}']))))))

/-- The items after the first. -/
def writeItems (l : Layout) (depth : Nat) : List Json → List Char
  | [] => []
  | item :: rest =>
    ',' :: (l.line depth ++ (write l depth item ++ writeItems l depth rest))

/-- The members after the first. -/
def writeMembers (l : Layout) (depth : Nat) : List (String × Json) → List Char
  | [] => []
  | member :: rest =>
    ',' :: (l.line depth ++ (quoted member.1 ++ (l.colon ++ (write l depth member.2 ++
      writeMembers l depth rest))))

end

/-- A value on one line without blanks. -/
def compact (v : Json) : String := String.ofList (write .compact 0 v)

/-- A value with an item a line. -/
def pretty (v : Json) : String := String.ofList (write .pretty 0 v)

end Tabular.Json
