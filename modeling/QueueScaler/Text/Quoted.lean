import QueueScaler.Text.Formless
/-!
# Quoted text

A text between double quotes, with an escape for each character that would be misread or not be
seen.

## Main definitions

* `Text.escapeChar`: one character inside the quotes.
* `Text.quote`: the quoted text.
-/

namespace QueueScaler.Text

/-- A character as it stands between the quotes. The backslash and the double quote are escaped,
the common controls have names, and other formless characters are given by their number in lower
case hexadecimal. -/
def escapeChar (c : Char) : List Char :=
  if c = '\\' then ['\\', '\\']
  else if c = '"' then ['\\', '"']
  else if c = '\n' then ['\\', 'n']
  else if c = '\r' then ['\\', 'r']
  else if c = '\t' then ['\\', 't']
  else if c = '\x00' then ['\\', '0']
  else if isFormless c then
    ['\\', 'u', '\x7b'] ++ Nat.toDigits 16 c.toNat ++ ['\x7d']
  else [c]

/-- A text between double quotes. -/
def quote (s : String) : String := String.ofList ('"' :: s.toList.flatMap escapeChar ++ ['"'])

end QueueScaler.Text
