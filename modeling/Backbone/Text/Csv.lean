/-!
# Separated values

A record is written as its fields with a semicolon between them and a newline after the last.
A field is quoted exactly if it holds a semicolon, a quote, a newline or a carriage return; a
quote inside a quoted field is written twice.  A record of one empty field is written as two
quotes, since an empty line is no record.
-/

namespace Backbone.Text.Csv

/-- The character between two fields. -/
def separator : Char := ';'

/-- A character that cannot stand in an unquoted field. -/
def isSpecial (c : Char) : Bool := c == separator || c == '"' || c == '\n' || c == '\r'

/-- The inside of a quoted field: each quote is written twice. -/
def doubleQuotes : List Char → List Char
  | [] => []
  | c :: rest => if c = '"' then '"' :: '"' :: doubleQuotes rest else c :: doubleQuotes rest

/-- The written form of a field. -/
def field (text : List Char) : List Char :=
  if text.any isSpecial then '"' :: (doubleQuotes text ++ ['"']) else text

/-- The written form of a record. -/
def record (fields : List (List Char)) : List Char :=
  if fields = [[]] then ['"', '"', '\n']
  else [separator].intercalate (fields.map field) ++ ['\n']

/-- The written form of a table, record by record. -/
def table (records : List (List (List Char))) : List Char := records.flatMap record

end Backbone.Text.Csv
