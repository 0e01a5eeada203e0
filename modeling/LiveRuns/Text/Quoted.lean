import LiveRuns.Unicode.Graphic

/-!
Quoted text for messages.

A text is shown between double quotes, on one line, with every character visible: quotes and
backslashes get a backslash, the common controls their letter, and every other character that does
not show as itself its code in hexadecimal.
-/

namespace LiveRuns.Text

def quotedChar (c : Char) : List Char :=
  if c = '\x00' then ['\\', '0']
  else if c = '\t' then ['\\', 't']
  else if c = '\r' then ['\\', 'r']
  else if c = '\n' then ['\\', 'n']
  else if c = '\\' then ['\\', '\\']
  else if c = '"' then ['\\', '"']
  else if Unicode.isGraphic c then [c]
  else ['\\', 'u', '{'] ++ Nat.toDigits 16 c.toNat ++ ['}']

def quoted (s : String) : String :=
  String.ofList ('"' :: (s.toList.flatMap quotedChar ++ ['"']))

end LiveRuns.Text
