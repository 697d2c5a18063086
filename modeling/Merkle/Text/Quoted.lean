import Merkle.Text.Invisible

/-! Text between double quotes, with escapes for whatever would not show. -/

namespace Merkle.Text

/-- A code point in hexadecimal between braces. -/
def codePoint (c : Char) : List Char :=
  -- The digits are in lower case and without leading zeros.
  ['\\', 'u', '\x7b'] ++ Nat.toDigits 16 c.toNat ++ ['\x7d']

/-- One character as it is written between the quotes. -/
def quoteChar (c : Char) : List Char :=
  if c = '"' then ['\\', '"']
  else if c = '\\' then ['\\', '\\']
  else if c = '\n' then ['\\', 'n']
  else if c = '\r' then ['\\', 'r']
  else if c = '\t' then ['\\', 't']
  else if c = '\x00' then ['\\', '0']
  -- A single quote and every visible character stand for themselves.
  else if invisible c then codePoint c
  else [c]

/-- A text in quotes. -/
def quoted (text : String) : String :=
  -- Each character is escaped on its own, whatever its neighbours are.
  String.ofList ('"' :: text.toList.flatMap quoteChar ++ ['"'])

end Merkle.Text
