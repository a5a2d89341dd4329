import Backbone.CommandLine.Path

/-!
# Directories of text files

What the paths of a command line lead to.  The files that are given stand at their places; every
place on the way to a file is a directory, and so is every directory above the one in which the
command line runs.

* `Files.read` — the text of a file;
* `Files.write` — the files after a text is put at a place, whose directory must exist;
* `Files.startFault` — what keeps a path from being started as a program: none of the files is
  one.
-/

namespace Backbone.CommandLine

/-- What stands at a place. -/
inductive Entry where
  /-- A file that holds a text. -/
  | text (content : String)
  /-- A file whose bytes are no text. -/
  | undecodable
  | directory
deriving DecidableEq

/-- The directories that stand under the root of a host, and its file that is always empty. -/
def hostEntries : List (Place × Entry) :=
  (⟨.root, ["dev", "null"]⟩, .text "") ::
    ["bin", "boot", "dev", "etc", "home", "lib", "media", "mnt", "opt", "proc", "root", "run",
      "sbin", "srv", "sys", "tmp", "usr", "var"].map fun name => (⟨.root, [name]⟩, .directory)

/-- The place under which the standard input can be read. -/
def standardInput : Place := ⟨.root, ["dev", "stdin"]⟩

/-- The place under which the standard output can be written. -/
def standardOutput : Place := ⟨.root, ["dev", "stdout"]⟩

/-- Files and directories at their places; the first entry of a place counts. -/
structure Files where
  /-- The entries, besides those of every host. -/
  entries : List (Place × Entry) := []
deriving DecidableEq

namespace Files

/-! ### Places of files -/

/-- What stands at a place, if anything does. -/
def entry? (files : Files) (place : Place) : Option Entry :=
  match (files.entries ++ hostEntries).find? fun entry => entry.1 == place with
  | some entry => some entry.2
  | none =>
    if place.names = [] || files.entries.any fun entry => place.isOnWayTo entry.1 then
      some .directory
    else none

/-- What stands at a place. -/
def find (files : Files) (place : Place) : Except FileFault Entry :=
  if place.names.any fun name => nameLimit < name.utf8ByteSize then .error .nameTooLong
  else
    match files.entry? place with
    | some entry => .ok entry
    | none => .error .missing

/-- The directory to which a name leads from a directory. -/
def enter (files : Files) (here : Place) (name : String) : Except FileFault Place := do
  match ← files.find (here.step name) with
  | .directory => return here.step name
  | _ => throw .notDirectory

/-- The place of a path.  Each name but the last must lead to a directory. -/
def reach (files : Files) (path : Path) : Except FileFault Place := do
  let directory ← path.names.dropLast.foldlM files.enter path.start
  return path.names.getLast?.elim directory directory.step

/-- What stands at a path. -/
def lookUp (files : Files) (path : String) : Except FileFault Entry := do
  let path ← Path.ofString path
  let entry ← files.find (← files.reach path)
  if path.endsInSlash && entry != .directory then throw .notDirectory
  return entry

/-! ### Reading and writing -/

/-- The files with one more, which hides what stood at its place. -/
def put (files : Files) (place : Place) (content : String) : Files :=
  ⟨(place, .text content) :: files.entries⟩

/-- The text of a file. -/
def read (files : Files) (path : String) : Except FileFault String := do
  match ← files.lookUp path with
  | .text content => return content
  | .undecodable => throw .undecodable
  | .directory => throw .isDirectory

/-- The files after a text was written to a path.  A slash at its end is refused before anything
is looked up, since no file can be made there. -/
def write (files : Files) (path : String) (content : String) : Except FileFault Files := do
  let path ← Path.ofString path
  let place ← files.reach path
  if path.endsInSlash then throw .isDirectory
  match files.find place with
  | .ok .directory => throw .isDirectory
  | .ok _ | .error .missing => return files.put place content
  | .error fault => throw fault

/-- The text of a file, if there is one. -/
def content? (files : Files) (path : String) : Option String := (files.read path).toOption

/-- What was written under the place of the standard output. -/
def printed (files : Files) : String :=
  match files.entry? standardOutput with
  | some (.text content) => content
  | _ => ""

/-! ### Programs -/

/-- Why a path cannot be started as a program.  A name without a slash is searched where the
programs are, in each of which the two directory names are found. -/
def startFault (files : Files) (path : String) : FileFault :=
  if path.toList.contains '\x00' then .holdsNul
  else if path.toList.contains '/' then
    match files.lookUp path with
    | .ok _ => .denied
    | .error fault => fault
  else if nameLimit < path.utf8ByteSize then .nameTooLong
  else if path = "." || path = ".." then .denied
  else .missing

end Files

end Backbone.CommandLine
