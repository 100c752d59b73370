import PageBuilder.Text.Printable

/-!
The quoted form of a text in messages and import lines: between double quotes, with escapes for
quotes, backslashes and every character that does not show by itself.
-/

namespace PageBuilder.Text

def hexDigit (value : Nat) : Char :=
  if value < 10 then Char.ofNat (48 + value) else Char.ofNat (87 + value)

/-- Small letters, and no more digits than the value needs. -/
def hexText (value : Nat) : List Char :=
  if value < 16 then [hexDigit value]
  else hexText (value / 16) ++ [hexDigit (value % 16)]

def quotedChar (char : Char) : List Char :=
  if char = '"' then ['\\', '"']
  else if char = '\\' then ['\\', '\\']
  else if char = '\t' then ['\\', 't']
  else if char = '\n' then ['\\', 'n']
  else if char = '\r' then ['\\', 'r']
  else if char.toNat = 0 then ['\\', '0']
  else if isShown char then [char]
  else ['\\', 'u', '\x7b'] ++ hexText char.toNat ++ ['\x7d']

def quoted (text : String) : String :=
  String.ofList ('"' :: text.toList.flatMap quotedChar ++ ['"'])

end PageBuilder.Text
