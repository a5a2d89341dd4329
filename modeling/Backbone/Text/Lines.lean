/-!
# Lines of a text

A line ends with a newline, and a carriage return right before that newline belongs to the line
end.  Text after the last newline is a line too unless it is empty; nothing is removed from it,
so a carriage return at the very end of a text stays.
-/

namespace Backbone.Text

/-- The line without one carriage return at its end. -/
def dropReturn (line : List Char) : List Char :=
  if line.getLast? = some '\r' then line.dropLast else line

/-- The lines of a text. -/
def lines (text : List Char) : List (List Char) :=
  let pieces := text.splitOn '\n'
  pieces.dropLast.map dropReturn ++ (pieces.getLast?.toList.filter fun last => !last.isEmpty)

@[simp]
theorem lines_nil : lines [] = [] := rfl

end Backbone.Text
