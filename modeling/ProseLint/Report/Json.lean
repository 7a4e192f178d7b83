import ProseLint.Text

/-!
# Compact JSON

Values are written without blanks. In a string the quote, the backslash and the control characters
are escaped, the common ones by a letter and the others by four hexadecimal digits; every other
character stands for itself.
-/
namespace ProseLint.Report.Json

/-- A hexadecimal digit, in small letters. -/
def hexDigit (n : Nat) : Char := Nat.digitChar n

/-- A character as it stands in a string. -/
def escape (c : Char) : Text :=
  if c = '"' then ['\\', '"']
  else if c = '\\' then ['\\', '\\']
  else if c = '\n' then ['\\', 'n']
  else if c = '\r' then ['\\', 'r']
  else if c = '\t' then ['\\', 't']
  else if c = '\x08' then ['\\', 'b']
  else if c = '\x0c' then ['\\', 'f']
  else if c.toNat < 0x20 then
    ['\\', 'u', '0', '0', hexDigit (c.toNat / 16), hexDigit (c.toNat % 16)]
  else [c]

def string (t : Text) : Text := ['"'] ++ t.flatMap escape ++ ['"']

def number (n : Nat) : Text := Text.ofNat n

def boolean (b : Bool) : Text := if b then "true".toList else "false".toList

def array (values : List Text) : Text := ['['] ++ Text.joinWith [','] values ++ [']']

/-- Fields in their order. -/
def object (fields : List (String × Text)) : Text :=
  ['\x7b'] ++ Text.joinWith [','] (fields.map fun f => string f.1.toList ++ [':'] ++ f.2) ++
    ['\x7d']

end ProseLint.Report.Json
