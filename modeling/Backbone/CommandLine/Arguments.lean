import Backbone.CommandLine.Invocation

/-!
# Reading the words of a command line

The words are read from left to right.  A word that starts with a minus sign, and is not that sign
alone, is an option; a value may be attached to it (`--name=value`, `-nvalue`, `-n=value`) or
follow as a word of its own.

* An option with one value takes the next word unless that is an option.
* The list of variables goes on to the next option; the list of assumptions, once it is begun by a
  word of its own, takes all words to the end, whatever they look like.  An attached value is the
  only one.
* Two minus signs end the options and lists; nothing may follow.
* The word for help may be followed by what it is asked about, and by nothing else.
* A value or flag may be given once in each place, and the first word that does not fit ends the
  reading.

`readWords` gives the invocation, or why there is none.
-/

namespace Backbone.CommandLine

/-! ### What the reading keeps -/

/-- What the next word may be. -/
inductive Expecting where
  /-- A task or an option. -/
  | anything
  /-- The value of an option. -/
  | value (setting : Setting)
  /-- A further variable, or an option. -/
  | targets
  /-- A further assumption. -/
  | assumptions
  /-- What help is asked about, if anything. -/
  | topic
  /-- Nothing, since help is asked for. -/
  | helpOnly
  /-- Nothing. -/
  | nothing
deriving DecidableEq

/-- What has been read. -/
structure Progress where
  /-- The settings before the task. -/
  outer : Settings := {}
  /-- The settings after the task. -/
  inner : Settings := {}
  /-- The task. -/
  task : Option Task := none
  /-- What the next word may be. -/
  expecting : Expecting := .anything
deriving DecidableEq

/-- Why the words make no invocation. -/
inductive Stop where
  /-- They are no command line. -/
  | refused
  /-- They ask for the version. -/
  | version
  /-- They ask for help. -/
  | help
deriving DecidableEq

/-- An accepted step, or the refusal. -/
def orRefuse {α : Type} : Option α → Except Stop α
  | some value => .ok value
  | none => .error .refused

/-! ### Options by name -/

/-- The options that can stand at some place. -/
inductive OptionName where
  | setting (setting : Setting)
  | targets
  | assumptions
  | omitSingles
  | omitCore
  | version
  | help
deriving DecidableEq

/-- The option of a long name. -/
def OptionName.ofLong? : String → Option OptionName
  | "input" => some (.setting .input)
  | "output" => some (.setting .output)
  | "timeout" => some (.setting .timeout)
  | "oracle" => some (.setting .oracle)
  | "cadical" => some (.setting .solver)
  | "cadiback" => some (.setting .backbone)
  | "format" => some (.setting .format)
  | "variables" => some .targets
  | "assumptions" => some .assumptions
  | "omit-singles" => some .omitSingles
  | "omit-core" => some .omitCore
  | "version" => some .version
  | "help" => some .help
  | _ => none

/-- The option of a short name. -/
def OptionName.ofShort? : Char → Option OptionName
  | 'i' => some (.setting .input)
  | 'o' => some (.setting .output)
  | 't' => some (.setting .timeout)
  | 'f' => some (.setting .format)
  | 'v' => some .targets
  | 'a' => some .assumptions
  | 'V' => some .version
  | 'h' => some .help
  | _ => none

/-- Whether the option takes no value. -/
def OptionName.isFlag : OptionName → Bool
  | .omitSingles | .omitCore | .version | .help => true
  | .setting _ | .targets | .assumptions => false

/-- Whether the word is an option. -/
def isOption (word : List Char) : Bool := word.head? == some '-' && word != ['-']

/-- The name of an option and the value attached to it.  What follows the short name of a flag is
no value, and it does not matter: the flags with a short name end the reading. -/
def readOption? : List Char → Option (OptionName × Option String)
  | '-' :: '-' :: text => do
    let name ← OptionName.ofLong? (String.ofList (text.takeWhile (· != '=')))
    match text.dropWhile (· != '=') with
    | [] => some (name, none)
    | _ :: value => if name.isFlag then none else some (name, some (String.ofList value))
  | '-' :: short :: text => do
    let name ← OptionName.ofShort? short
    if name.isFlag then some (name, none)
    else
      match text with
      | [] => some (name, none)
      | '=' :: value => some (name, some (String.ofList value))
      | value => some (name, some (String.ofList value))
  | _ => none

/-! ### One word -/

/-- One more value of an option, in the place that is being read. -/
def Progress.put? (progress : Progress) (setting : Setting) (word : String) : Option Progress :=
  match progress.task with
  | none => (progress.outer.put? setting word).map
      ({ progress with outer := ·, expecting := .anything })
  | some _ => (progress.inner.put? setting word).map
      ({ progress with inner := ·, expecting := .anything })

/-- The task with one more word in its list, if it has one. -/
def Task.addWord (word : String) : Task → Task
  | .atomicSets omitSingles omitCore targets =>
    .atomicSets omitSingles omitCore (targets ++ [word])
  | .core assumptions => .core (assumptions ++ [word])
  | task => task

/-- One more word of the task's list. -/
def Progress.addWord (progress : Progress) (word : String) : Progress :=
  { progress with task := progress.task.map (Task.addWord word) }

/-- An option of the task, by itself or with an attached value. -/
def Progress.taskOption (progress : Progress) (task : Task) (name : OptionName)
    (value : Option String) : Except Stop Progress :=
  match task, name, value with
  | .atomicSets _ _ _, .targets, none => .ok { progress with expecting := .targets }
  | .core _, .assumptions, none => .ok { progress with expecting := .assumptions }
  | .atomicSets _ _ _, .targets, some word
  | .core _, .assumptions, some word =>
    .ok { progress.addWord word with expecting := .anything }
  | .atomicSets false omitCore targets, .omitSingles, none =>
    .ok { progress with task := some (.atomicSets true omitCore targets), expecting := .anything }
  | .atomicSets omitSingles false targets, .omitCore, none =>
    .ok { progress with
      task := some (.atomicSets omitSingles true targets), expecting := .anything }
  | _, _, _ => .error .refused

/-- An option, by itself or with an attached value. -/
def Progress.option (progress : Progress) (name : OptionName) (value : Option String) :
    Except Stop Progress :=
  match name, value, progress.task with
  | .help, _, _ => .error .help
  | .version, _, none => .error .version
  | .setting setting, some word, _ => orRefuse (progress.put? setting word)
  | .setting setting, none, _ => .ok { progress with expecting := .value setting }
  | name, value, some task => progress.taskOption task name value
  | _, _, none => .error .refused

/-- The word for help. -/
def helpWord : String := "help"

/-- Whether help can be asked about the word. -/
def isTopic (word : String) : Bool := word = helpWord || (Task.ofWord? word).isSome

/-- A word that is no option. -/
def Progress.word (progress : Progress) (word : String) : Except Stop Progress :=
  match progress.expecting, progress.task with
  | .value setting, _ => orRefuse (progress.put? setting word)
  | .targets, _ => .ok (progress.addWord word)
  | _, some _ => .error .refused
  | _, none =>
    if word = helpWord then .ok { progress with expecting := .topic }
    else (orRefuse (Task.ofWord? word)).map ({ progress with task := some · })

/-- What has been read after one more word. -/
def Progress.next (progress : Progress) (word : String) : Except Stop Progress :=
  match progress.expecting with
  | .assumptions => .ok (progress.addWord word)
  | .topic => if isTopic word then .ok { progress with expecting := .helpOnly } else .error .refused
  | .nothing | .helpOnly => .error .refused
  | expecting =>
    if word = "--" then
      match expecting with
      | .value _ => .error .refused
      | _ => .ok { progress with expecting := .nothing }
    else if isOption word.toList then
      match expecting, readOption? word.toList with
      | .value _, _ => .error .refused
      | _, none => .error .refused
      | _, some (name, value) => progress.option name value
    else progress.word word

/-! ### The environment -/

/-- The values that the environment gives to the two programs. -/
structure Environment where
  /-- The solver. -/
  solver : Option String := none
  /-- The backbone extractor. -/
  backbone : Option String := none

/-- The name of the environment's value for the solver. -/
def solverVariable : String := "CADIFE_CADICAL"

/-- The name of the environment's value for the backbone extractor. -/
def backboneVariable : String := "CADIFE_CADIBACK"

/-- The environment's values, looked up by their names. -/
def Environment.ofLookup (lookup : String → Option String) : Environment :=
  ⟨lookup solverVariable, lookup backboneVariable⟩

/-- The value of a program: as given, or else from the environment.  The environment's value must
be a path in each of the two places that does not give one. -/
def programOf (environment inner outer : Option String) : Except Stop (Option String) :=
  match inner, outer, environment with
  | some inner, some _, _ => .ok (some inner)
  | inner, outer, some word =>
    (orRefuse (pathOfWord? word)).map fun path => some ((inner.or outer).getD path)
  | inner, outer, none => .ok (inner.or outer)

/-! ### All words -/

/-- The invocation of all that was read. -/
def Progress.finish (progress : Progress) (environment : Environment) :
    Except Stop Invocation := do
  match progress.expecting with
  | .value _ => throw .refused
  | .topic | .helpOnly => throw .help
  | _ => pure ()
  let task ← orRefuse progress.task
  let solver ← programOf environment.solver progress.inner.solver progress.outer.solver
  let backbone ← programOf environment.backbone progress.inner.backbone progress.outer.backbone
  let settings := progress.inner.within progress.outer
  return .ofSettings task { settings with solver, backbone }

/-- The invocation of the words of a command line. -/
def readWords (words : List String) (environment : Environment) : Except Stop Invocation := do
  let progress ← words.foldlM Progress.next {}
  progress.finish environment

end Backbone.CommandLine
