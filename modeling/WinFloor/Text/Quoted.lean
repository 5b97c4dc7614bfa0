import WinFloor.Text.Numeral

/-!
String literals of JSON.
-/
namespace WinFloor.Text.Quoted

/-- A character inside a literal. Control characters have a short form or four digits, and all else
but the quote and the backslash stands for itself. -/
def char (c : Char) : List Char :=
  if c == '"' then ['\\', '"']
  else if c == '\\' then ['\\', '\\']
  else if c.toNat == 0x08 then ['\\', 'b']
  else if c == '\t' then ['\\', 't']
  else if c == '\n' then ['\\', 'n']
  else if c.toNat == 0x0c then ['\\', 'f']
  else if c == '\r' then ['\\', 'r']
  else if c.toNat < 0x20 then '\\' :: 'u' :: hexDigits 4 c.toNat
  else [c]

def literal (text : String) : String :=
  String.ofList ('"' :: text.toList.flatMap char ++ ['"'])

end WinFloor.Text.Quoted
