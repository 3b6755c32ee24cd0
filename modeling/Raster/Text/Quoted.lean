import Raster.Text.Hidden

/-! Quoted text: a text between double quotes, on one line and with every character visible. -/

namespace Raster.Text

/-- A code point in lowercase hexadecimal digits. -/
def hexDigits (code : Nat) : String := String.ofList (Nat.toDigits 16 code)

/-- A character as it stands between quotes. -/
def quotedChar (c : Char) : String :=
  if c = '\x00' then "\\0"
  else if c = '\t' then "\\t"
  else if c = '\n' then "\\n"
  else if c = '\r' then "\\r"
  else if c = '"' then "\\\""
  else if c = '\\' then "\\\\"
  -- What would not be seen is named by its code point.
  else if isHidden c then "\\u\x7b" ++ hexDigits c.toNat ++ "\x7d"
  else c.toString

/-- A text between double quotes. -/
def quoted (text : String) : String :=
  "\"" ++ String.join (text.toList.map quotedChar) ++ "\""

end Raster.Text
