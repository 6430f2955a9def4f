import ObjectModel.Text.Escaped

/-!
Quoted text in diagnostics.

A text is put between double quotes; quotes, backslashes and the common controls are written with a
backslash, and every other character without a shape of its own by its code point in hexadecimal.
-/

namespace ObjectModel.Text

def hexText (n : Nat) : String := String.ofList (Nat.toDigits 16 n)

def escapeChar (c : Char) : String :=
  if c = '"' then "\\\""
  else if c = '\\' then "\\\\"
  else if c = '\n' then "\\n"
  else if c = '\r' then "\\r"
  else if c = '\t' then "\\t"
  else if c.toNat = 0 then "\\0"
  else if isShapeless c then "\\u\x7b" ++ hexText c.toNat ++ "\x7d"
  else c.toString

def quoted (s : String) : String := "\"" ++ String.join (s.toList.map escapeChar) ++ "\""

/-- Texts between quotes, as a list in brackets. -/
def quotedList (ss : List String) : String := "[" ++ ", ".intercalate (ss.map quoted) ++ "]"

end ObjectModel.Text
