import Backbone.Fault

/-!
# Paths and places

A path is the text by which a command line names a file; a place is where the file stands.  The
directory in which the command line runs has no known name, so places count from it, from one of
the directories above it, or from the root.

* `Place.step` — the place that one name of a path leads to;
* `Path.ofString` — the start, the names and the trailing slash of a path, if the host takes it.
-/

namespace Backbone.CommandLine

/-! ### Places -/

/-- The directory from which the names of a place count. -/
inductive Anchor where
  /-- The root, which is its own parent. -/
  | root
  /-- The directory so many steps above the one in which the command line runs. -/
  | above (steps : Nat)
deriving DecidableEq

/-- A place: the names on the way to it. -/
structure Place where
  /-- Where the way starts. -/
  anchor : Anchor := .above 0
  /-- The names of the directories on the way, and then its own. -/
  names : List String := []
deriving DecidableEq

/-- The directory that holds the place. -/
def Place.parent : Place → Place
  | ⟨.root, []⟩ => ⟨.root, []⟩
  | ⟨.above steps, []⟩ => ⟨.above (steps + 1), []⟩
  | ⟨anchor, names⟩ => ⟨anchor, names.dropLast⟩

/-- The place to which a name leads: a dot stays, two dots go up. -/
def Place.step (place : Place) (name : String) : Place :=
  if name = "." then place
  else if name = ".." then place.parent
  else ⟨place.anchor, place.names ++ [name]⟩

/-- Whether the way to the other place goes through this one. -/
def Place.isOnWayTo (place other : Place) : Bool :=
  place.anchor = other.anchor && place.names.isPrefixOf other.names

/-! ### Paths -/

/-- A path. -/
structure Path where
  /-- The directory from which it counts. -/
  start : Place
  /-- Its names, none of them empty. -/
  names : List String
  /-- Whether a slash stands at its end, so that it can only mean a directory. -/
  endsInSlash : Bool
deriving DecidableEq

/-- The number of bytes that a name can have. -/
def nameLimit : Nat := 255

/-- The number of bytes that a path can have. -/
def pathLimit : Nat := 4095

/-- The names in a path.  Slashes in a row count as one. -/
def namesOf (path : String) : List String :=
  ((path.toList.splitOn '/').map String.ofList).filter (· != "")

/-- The path of a text, if it is neither empty nor too long. -/
def Path.ofString (text : String) : Except FileFault Path :=
  if text = "" then .error .missing
  else if pathLimit < text.utf8ByteSize then .error .nameTooLong
  else .ok
    { start := if text.toList.head? = some '/' then { anchor := .root } else {}
      names := namesOf text
      endsInSlash := text.toList.getLast? = some '/' }

end Backbone.CommandLine
