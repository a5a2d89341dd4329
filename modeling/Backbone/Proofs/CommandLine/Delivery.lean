import Backbone.CommandLine.Run

/-!
# What a command line leaves behind

A result is delivered to the standard output or to a file, and a file that was written is read back
as what was written.  That needs an argument, since the new file might stand in its own way: it does
not, because a text is never put where a directory is.

* `Fits` — every name on the way to a place is short enough;
* `find_put_self`, `reach_put` — what stands at a place where a text was put, and the way to it;
* `write_eq_ok_iff`, `content?_of_write` — when a file is written, and that it is read back;
* `CanWrite` — the output that an invocation names can be written;
* `Delivers`, `delivers_conclude` — an invocation ends well and its output is a given result.
-/

namespace Backbone.CommandLine

/-- Every name on the way to the place is short enough for a host. -/
def Place.Fits (place : Place) : Prop := ∀ name ∈ place.names, name.utf8ByteSize ≤ nameLimit

instance (place : Place) : Decidable place.Fits :=
  inferInstanceAs (Decidable (∀ name ∈ place.names, _ ≤ _))

theorem bind_eq_ok_iff {ε α β : Type} {first : Except ε α} {next : α → Except ε β} {result : β} :
    (first >>= next) = .ok result ↔ ∃ value, first = .ok value ∧ next value = .ok result := by
  cases first with
  | error fault => simp [bind, Except.bind]
  | ok value => simp [bind, Except.bind]

namespace Files

variable {files written : Files} {place here there : Place} {entry : Entry} {content : String}

/-! ### Looking up places -/

theorem find_of_fits (fits : place.Fits) :
    files.find place = match files.entry? place with
      | some entry => .ok entry
      | none => .error .missing := by
  have short : ¬(place.names.any fun name => nameLimit < name.utf8ByteSize) = true := by
    simpa [Place.Fits] using fits
  exact if_neg short

theorem find_of_not_fits (long : ¬place.Fits) : files.find place = .error .nameTooLong :=
  if_pos (by simpa [Place.Fits] using long)

theorem find_eq_ok_iff :
    files.find place = .ok entry ↔ place.Fits ∧ files.entry? place = some entry := by
  by_cases fits : place.Fits
  · rw [find_of_fits fits, and_iff_right fits]
    cases files.entry? place <;> simp
  · rw [find_of_not_fits fits]
    simp [fits]

/-! ### A file at its place -/

theorem stands_put_self (files : Files) (place : Place) (content : String) :
    entry? (files.put place content) place = some (.text content) := by
  unfold entry? put
  simp

/-- A directory at another place stays one. -/
theorem stands_put_of_ne (other : place ≠ here) (directory : files.entry? here = some .directory) :
    entry? (files.put place content) here = some .directory := by
  unfold entry? at directory ⊢
  rw [put, List.cons_append, List.find?_cons_of_neg (by simpa using other), List.any_cons]
  cases found : (files.entries ++ hostEntries).find? fun entry => entry.1 == here with
  | some entry =>
    rw [found] at directory
    exact directory
  | none =>
    rw [found] at directory
    cases onWay : here.names = [] || files.entries.any fun entry => here.isOnWayTo entry.1 with
    | false => simp [onWay] at directory
    | true =>
      refine if_pos ?_
      rw [Bool.or_left_comm, onWay, Bool.or_true]

theorem find_put_self (fits : place.Fits) :
    (files.put place content).find place = .ok (.text content) :=
  find_eq_ok_iff.2 ⟨fits, stands_put_self files place content⟩

section NoDirectory

/-! The place is no directory. -/

variable (noDirectory : files.find place ≠ .ok .directory)

include noDirectory

theorem find_put_of_directory (directory : files.find here = .ok .directory) :
    (files.put place content).find here = .ok .directory := by
  obtain ⟨fits, stands⟩ := find_eq_ok_iff.1 directory
  have other : place ≠ here := fun same => noDirectory (same ▸ directory)
  exact find_eq_ok_iff.2 ⟨fits, stands_put_of_ne other stands⟩

theorem enter_put {name : String} (entered : files.enter here name = .ok there) :
    (files.put place content).enter here name = .ok there := by
  obtain ⟨entry, found, entered⟩ := bind_eq_ok_iff.1 entered
  cases entry with
  | text content => cases entered
  | undecodable => cases entered
  | directory =>
    exact bind_eq_ok_iff.2
      ⟨.directory, find_put_of_directory noDirectory found, entered⟩

theorem foldlM_enter_put {names : List String}
    (entered : names.foldlM files.enter here = .ok there) :
    names.foldlM (files.put place content).enter here = .ok there := by
  induction names generalizing here with
  | nil => exact entered
  | cons name names ih =>
    obtain ⟨next, first, later⟩ := bind_eq_ok_iff.1 entered
    exact bind_eq_ok_iff.2 ⟨next, enter_put noDirectory first, ih later⟩

/-- The way to any place is as it was. -/
theorem reach_put {path : Path} (reached : files.reach path = .ok there) :
    (files.put place content).reach path = .ok there := by
  obtain ⟨directory, entered, reached⟩ := bind_eq_ok_iff.1 reached
  exact bind_eq_ok_iff.2 ⟨directory, foldlM_enter_put noDirectory entered, reached⟩

end NoDirectory

/-! ### Writing and reading back -/

/-- The last step of writing: something stands at the place already, or nothing does. -/
theorem putOrRefuse_eq_ok_iff :
    (match files.find place with
      | .ok .directory => throw .isDirectory
      | .ok _ | .error .missing => return files.put place content
      | .error fault => throw fault : Except FileFault Files) = .ok written ↔
      place.Fits ∧ files.find place ≠ .ok .directory ∧ files.put place content = written := by
  by_cases fits : place.Fits
  · rw [find_of_fits fits, and_iff_right fits]
    cases files.entry? place with
    | none => simp [pure, Except.pure]
    | some entry =>
      cases entry with
      | text content => simp [pure, Except.pure]
      | undecodable => simp [pure, Except.pure]
      | directory => simp [throw, throwThe, MonadExceptOf.throw]
  · rw [find_of_not_fits fits]
    simp [fits, throw, throwThe, MonadExceptOf.throw]

/-- A text is written if the path leads to a place, without a slash at its end, and this place is no
directory. -/
theorem write_eq_ok_iff {path : String} :
    files.write path content = .ok written ↔
      ∃ parsed place, Path.ofString path = .ok parsed ∧ files.reach parsed = .ok place ∧
        parsed.endsInSlash = false ∧ place.Fits ∧ files.find place ≠ .ok .directory ∧
        files.put place content = written := by
  constructor
  · intro wrote
    obtain ⟨parsed, read, wrote⟩ := bind_eq_ok_iff.1 wrote
    obtain ⟨place, reached, wrote⟩ := bind_eq_ok_iff.1 wrote
    cases slash : parsed.endsInSlash with
    | true =>
      rw [slash] at wrote
      cases wrote
    | false =>
      rw [slash] at wrote
      exact ⟨parsed, place, read, reached, slash, putOrRefuse_eq_ok_iff.1 wrote⟩
  · intro given
    obtain ⟨parsed, place, read, reached, slash, stands⟩ := given
    refine bind_eq_ok_iff.2 ⟨parsed, read, bind_eq_ok_iff.2 ⟨place, reached, ?_⟩⟩
    rw [slash]
    exact putOrRefuse_eq_ok_iff.2 stands

/-- Whether a path can be written has nothing to do with the text. -/
theorem write_of_write {path : String} (other : String)
    (wrote : files.write path content = .ok written) :
    ∃ written, files.write path other = .ok written := by
  obtain ⟨parsed, place, read, reached, slash, fits, noDirectory, -⟩ := write_eq_ok_iff.1 wrote
  exact ⟨_, write_eq_ok_iff.2 ⟨parsed, place, read, reached, slash, fits, noDirectory, rfl⟩⟩

/-- A file that was written is read back. -/
theorem content?_of_write {path : String} (wrote : files.write path content = .ok written) :
    written.content? path = some content := by
  obtain ⟨parsed, place, read, reached, slash, fits, noDirectory, rfl⟩ := write_eq_ok_iff.1 wrote
  have stands : (files.put place content).lookUp path = .ok (.text content) := by
    refine bind_eq_ok_iff.2 ⟨parsed, read, ?_⟩
    refine bind_eq_ok_iff.2 ⟨place, reach_put noDirectory reached, ?_⟩
    refine bind_eq_ok_iff.2 ⟨.text content, find_put_self fits, ?_⟩
    rw [slash]
    rfl
  rw [content?, Files.read, stands]
  rfl

end Files

/-! ### Endings -/

/-- The output that the invocation names, if it names one, can be written. -/
def Invocation.CanWrite (invocation : Invocation) (files : Files) : Prop :=
  ∀ path, invocation.output = some path → ∃ written, files.write path "" = .ok written

/-- The invocation ended well, and its output is the result and nothing else. -/
structure Invocation.Delivers (invocation : Invocation) (files : Files) (ending : Ending)
    (result : String) : Prop where
  /-- All went well. -/
  status : ending.status = 0
  /-- The standard output is the result, unless a file is named for it. -/
  printed : invocation.output = none → ending.stdout = result ∧ ending.files = files
  /-- If a file is named, its text is the result, and no other file is written. -/
  written : ∀ path, invocation.output = some path →
    files.write path result = .ok ending.files ∧ ending.files.content? path = some result

variable {invocation : Invocation} {files : Files}

theorem run_of_accepted {m : Type → Type} [Monad m] {arguments : List String}
    {environment : Environment} (accepted : readWords arguments environment = .ok invocation)
    (stopwatch : Enumeration.Stopwatch m) (launch : External.Launcher m) (files : Files)
    (stdin : String) : run arguments environment stopwatch launch files stdin =
      invocation.run stopwatch launch files stdin := by
  rw [run, accepted]

theorem delivers_conclude (can : invocation.CanWrite files) (result : String) :
    invocation.Delivers files (invocation.conclude files (.ok result)) result := by
  rw [Invocation.conclude]
  cases output : invocation.output with
  | none =>
    refine ⟨rfl, fun _ => ⟨rfl, rfl⟩, fun path named => ?_⟩
    rw [output] at named
    cases named
  | some path =>
    obtain ⟨empty, writable⟩ := can path output
    obtain ⟨written, wrote⟩ := Files.write_of_write result writable
    dsimp only
    rw [wrote]
    refine ⟨rfl, fun none_ => ?_, fun path' named => ?_⟩
    · rw [output] at none_
      cases none_
    · rw [output] at named
      cases named
      exact ⟨wrote, Files.content?_of_write wrote⟩

end Backbone.CommandLine
