import Thesaurus.CommandLine.Help
import Thesaurus.Text.Cut

/-!
# Reading command lines

The words of a command line are read from left to right against the rules, one
command inside another. A word that begins with a hyphen is an option, or several
switches in one; the value of an option follows it, behind `=` or as the next
word, which may not look like an option itself. After `--` all words are
arguments. No option that takes one value may be given twice for one command.

An option with its value as a word of its own is pending at first: it is held
against the rules when the same command is given something more, or else when all
commands below have been read. So whatever is shown on behalf of a command below,
or by the command that shows help, is shown in spite of it.

Where a line breaks the rules nothing is said but which command it was meant for.

## Main definitions

* `Reading`: what a command line comes to.
* `read`: reads a command line.
-/

namespace Thesaurus.CommandLine

/-- What was given to one command. -/
structure Given where
  command : String
  /-- The options by their long names, with their values; a switch has none. -/
  options : List (String × Option String) := []
  arguments : List String := []
deriving DecidableEq, Repr, Inhabited

/-- What a command line comes to. -/
inductive Reading
  /-- What was given to each command, the outermost first. -/
  | complete (given : List Given)
  /-- A text is to be shown instead. -/
  | shown (path : List String) (text : String)
  /-- The line breaks the rules of the command to which the names lead. -/
  | refused (path : List String)
deriving DecidableEq, Repr, Inhabited

/-- The state between two words, inside one command. -/
structure Reader where
  /-- What the option for the version shows. -/
  version : String
  /-- The names that lead to the command, the program first. -/
  path : List String
  rule : CommandRule
  options : List OptionRule
  /-- The options that the commands below inherit. -/
  handedDown : List OptionRule
  given : Given
  /-- The last option, unless it is settled, with its value, unless that has still
  to come. -/
  pending : Option (OptionRule × Option String) := none
  /-- Whether only arguments may follow. -/
  isTrailing : Bool := false

namespace Reader

/-- The line breaks the rules here. -/
def refuse (r : Reader) : Reading := .refused r.path

/-- Begins to read what follows the name of a command below. -/
def enter (r : Reader) (c : CommandRule) : Reader where
  version := r.version
  path := r.path ++ [c.name]
  rule := c
  options := c.allOptions r.handedDown
  handedDown := c.handedDown r.handedDown
  given := { command := c.name }

/-- The help of the command. -/
def help (r : Reader) : Reading := .shown r.path (helpText r.path r.rule r.options)

/-- The help of the command to which further names lead. -/
def helpOf (r : Reader) : List String → Reading
  | [] => r.help
  | name :: rest =>
    match r.rule.command? name with
    | some c => helpOf (r.enter c) rest
    | none =>
      if name = helpCommand.name && !r.rule.commands.isEmpty && rest.isEmpty then
        let path := r.path ++ [helpCommand.name]
        .shown path (helpText path helpCommand [])
      else r.refuse

/-- Whether an option was given. -/
def has (r : Reader) (o : OptionRule) : Bool := r.given.options.any (·.1 == o.long)

/-- Notes an option, unless it was given before and may not be repeated. -/
def note (r : Reader) (o : OptionRule) (value : Option String) : Except Reading Reader :=
  if r.has o && !o.isRepeatable || !value.all o.accepts then .error r.refuse
  else .ok { r with given := { r.given with options := r.given.options ++ [(o.long, value)] } }

/-- Notes the option that is pending; its value has to be there. -/
def settle (r : Reader) : Except Reading Reader :=
  match r.pending with
  | none => .ok r
  | some (_, none) => .error r.refuse
  | some (o, some value) => { r with pending := none }.note o (some value)

/-- Whether an option waits for its value. -/
def isAwaiting (r : Reader) : Bool := r.pending.any (·.2.isNone)

/-- Takes an option without a value attached. -/
def take (r : Reader) (o : OptionRule) : Except Reading Reader := do
  let r ← r.settle
  match o.kind with
  | .switch => r.note o none
  | .value _ => .ok { r with pending := some (o, none) }
  | .showHelp => .error r.help
  | .showVersion => .error (.shown r.path r.version)

/-- Takes an option with its value attached. -/
def takeWith (r : Reader) (o : OptionRule) (value : String) : Except Reading Reader := do
  let r ← r.settle
  match o.kind with
  | .value _ => r.note o (some value)
  | _ => .error r.refuse

/-- Takes an option after two hyphens, with what stands behind an `=`. -/
def takeLong (r : Reader) (name : String) (attached : Option String) : Except Reading Reader :=
  match r.options.find? (·.long == name), attached with
  | none, _ => .error r.refuse
  | some o, none => r.take o
  | some o, some value => r.takeWith o value

/-- Takes the letters after one hyphen: switches, up to an option whose value is
the rest. -/
def takeShort (r : Reader) : List Char → Except Reading Reader
  | [] => .ok r
  | letter :: rest =>
    match r.options.find? (·.short == some letter) with
    | none => .error r.refuse
    | some o =>
      match o.kind, rest with
      | .value _, '=' :: value => r.takeWith o (.ofList value)
      | .value _, value@(_ :: _) => r.takeWith o (.ofList value)
      | _, rest => do takeShort (← r.take o) rest

/-- Takes a word as the next argument. -/
def takeArgument (r : Reader) (word : String) : Except Reading Reader := do
  let r ← r.settle
  match r.rule.arguments[r.given.arguments.length]? with
  | some a =>
    if a.accepts word then
      .ok { r with given := { r.given with arguments := r.given.arguments ++ [word] } }
    else .error r.refuse
  | none => .error r.refuse

/-- Takes a word that begins with a hyphen, if this is an option; `--` ends the
options. -/
def takeOption? (r : Reader) (word : String) : Option (Except Reading Reader) :=
  match word.toList with
  | ['-'] => none
  | ['-', '-'] => some (.ok { r with isTrailing := true })
  | '-' :: '-' :: rest =>
    match Text.cutFirst '=' rest with
    | some (name, value) => some (r.takeLong (.ofList name) (some (.ofList value)))
    | none => some (r.takeLong (.ofList rest) none)
  | '-' :: letters => some (r.takeShort letters)
  | _ => none

/-- Takes one word that names no command. -/
def takeWord (r : Reader) (word : String) : Except Reading Reader :=
  if r.isTrailing then r.takeArgument word
  else
    match r.takeOption? word, r.pending with
    | some taken, _ => taken
    | none, some (o, none) => .ok { r with pending := some (o, some word) }
    | none, _ => r.takeArgument word

/-- Whether everything that the command needs was given; `below` is what was given
to the commands inside. -/
def isSatisfied (r : Reader) (below : List Given) : Bool :=
  r.given.arguments.length == r.rule.arguments.length
    && (r.options.all fun o => !o.isRequired || r.has o)
    && (r.rule.commands.isEmpty || !below.isEmpty)

/-- What the command comes to at the end of the line. -/
def finish (r : Reader) (below : List Given) : Reading :=
  match r.settle with
  | .ok r => if r.isSatisfied below then .complete (r.given :: below) else r.refuse
  | .error reading => reading

/-- What the command comes to around a command below. -/
def around (r : Reader) : Reading → Reading
  | .complete below => r.finish below
  | reading => reading

/-- Reads the words that are left. -/
def run (r : Reader) : List String → Reading
  | [] => r.finish []
  | word :: rest =>
    if r.isTrailing || r.isAwaiting || r.rule.commands.isEmpty then
      match r.takeWord word with
      | .ok r => r.run rest
      | .error reading => reading
    else
      match r.rule.command? word with
      | some c => r.around ((r.enter c).run rest)
      | none =>
        if word = helpCommand.name then r.helpOf rest
        else
          match r.takeWord word with
          | .ok r => r.run rest
          | .error reading => reading

end Reader

/-- Reads the words of a command line against the rules of a program. -/
def read (program : CommandRule) (version : String) (words : List String) : Reading :=
  let reader : Reader := {
    version := version
    path := [program.name]
    rule := program
    options := program.allOptions [] ++ [versionOption]
    handedDown := program.handedDown []
    given := { command := program.name } }
  reader.run words

/-- The values of an option, those given to the innermost command that has it. -/
def valuesOf (given : List Given) (long : String) : List (Option String) :=
  (given.foldl (fun found g =>
    match g.options.filter (·.1 == long) with
    | [] => found
    | here => here) []).map (·.2)

end Thesaurus.CommandLine
