/-!
# Rules of a command line

What a program accepts on its command line, as data: a tree of commands, each with
its arguments and options. The same rules are read against and shown as help.

## Main definitions

* `CommandRule`, `ArgumentRule`, `OptionRule`.
* `CommandRule.allOptions`: the options of a command with those it inherits.
-/

namespace Thesaurus.CommandLine

/-- What an option does. -/
inductive OptionKind
  | switch
  /-- Takes a value, which the help calls by this name. -/
  | value (placeholder : String)
  | showHelp
  | showVersion
deriving DecidableEq, Repr, Inhabited

/-- An option of a command. -/
structure OptionRule where
  /-- The name after two hyphens. -/
  long : String
  /-- The letter after one hyphen. -/
  short : Option Char := none
  kind : OptionKind := .switch
  help : String := ""
  /-- What the help gives as the default. -/
  default : Option String := none
  isRequired : Bool := false
  isRepeatable : Bool := false
  /-- Whether the commands below accept the option too. -/
  isGlobal : Bool := false
  /-- Whether a value is admitted. -/
  accepts : String → Bool := fun _ => true
  /-- The rank among the options that the help shows. -/
  rank : Nat := 0

/-- An argument of a command, known by its position. -/
structure ArgumentRule where
  /-- What the help calls the argument. -/
  placeholder : String
  help : String := ""
  /-- Whether any number of texts may stand in this place. -/
  isList : Bool := false
  accepts : String → Bool := fun _ => true

/-- A command with the commands below it. -/
structure CommandRule where
  name : String
  about : String
  arguments : List ArgumentRule := []
  options : List OptionRule := []
  commands : List CommandRule := []

/-- The rank of the options that every command has. -/
def lastRank : Nat := 999

/-- The option that shows the help of a command. -/
def helpOption : OptionRule where
  long := "help"
  short := some 'h'
  kind := .showHelp
  help := "Print help"
  rank := lastRank

/-- The option that shows the version of the program. -/
def versionOption : OptionRule where
  long := "version"
  short := some 'V'
  kind := .showVersion
  help := "Print version"
  rank := lastRank

/-- What the help says about the command that shows help. -/
def helpAbout : String := "Print this message or the help of the given subcommand(s)"

/-- The command that shows the help of another; its own options are none. -/
def helpCommand : CommandRule where
  name := "help"
  about := helpAbout
  arguments := [
    { placeholder := "COMMAND", help := "Print help for the subcommand(s)", isList := true }]

namespace CommandRule

/-- The options of a command by themselves, ranked in their order. -/
def ranked (c : CommandRule) : List OptionRule :=
  c.options.mapIdx fun index o => { o with rank := index }

/-- All options of a command; `inherited` are those of the commands around it. -/
def allOptions (c : CommandRule) (inherited : List OptionRule) : List OptionRule :=
  c.ranked ++ inherited ++ [helpOption]

/-- The options that the commands below inherit. -/
def handedDown (c : CommandRule) (inherited : List OptionRule) : List OptionRule :=
  c.ranked.filter (·.isGlobal) ++ inherited

/-- The command of a name below this one. -/
def command? (c : CommandRule) (name : String) : Option CommandRule :=
  c.commands.find? (·.name == name)

end CommandRule

end Thesaurus.CommandLine
