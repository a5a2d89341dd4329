/-!
# JSON lists of strings

Strings are escaped as little as the format allows: the quote, the backslash and the characters
below `U+0020`, of which five have a short escape and the others four lower-case hexadecimal
digits.  Lists carry no blanks.
-/

namespace Backbone.Text.Json

/-- The written form of one character inside a string. -/
def escape (c : Char) : List Char :=
  if c = '"' then ['\\', '"']
  else if c = '\\' then ['\\', '\\']
  else if c.toNat = 0x08 then ['\\', 'b']
  else if c.toNat = 0x0c then ['\\', 'f']
  else if c = '\n' then ['\\', 'n']
  else if c = '\r' then ['\\', 'r']
  else if c = '\t' then ['\\', 't']
  else if c.toNat < 0x20 then
    ['\\', 'u', '0', '0', Nat.digitChar (c.toNat / 16), Nat.digitChar (c.toNat % 16)]
  else [c]

/-- The written form of a string. -/
def string (text : List Char) : List Char := '"' :: (text.flatMap escape ++ ['"'])

/-- The written form of a list of written elements. -/
def list (elements : List (List Char)) : List Char :=
  '[' :: ([','].intercalate elements ++ [']'])

end Backbone.Text.Json
