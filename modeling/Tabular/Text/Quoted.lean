import Tabular.Text.Unprintable

/-!
# Texts quoted in messages

A path or a text that a message mentions stands in double quotation marks, so
that its ends show. The quotation mark and the backslash get a backslash, the
usual controls their letters, and every other character without a shape its code
in braces.
-/

namespace Tabular.Text

/-- One character between quotation marks. -/
def quotedChar (c : Char) : List Char :=
  if c = '"' then ['\\', '"']
  else if c = '\\' then ['\\', '\\']
  else if c = '\n' then ['\\', 'n']
  else if c = '\r' then ['\\', 'r']
  else if c = '\t' then ['\\', 't']
  else if c = '\x00' then ['\\', '0']
  else if isUnprintable c then '\\' :: 'u' :: '{' :: (Nat.toDigits 16 c.toNat ++ ['}'])
  else [c]

/-- A text between quotation marks. -/
def quoted (s : String) : String :=
  String.ofList ('"' :: (s.toList.flatMap quotedChar ++ ['"']))

end Tabular.Text
