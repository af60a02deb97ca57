import Thesaurus.CommandLine.Rules
import Thesaurus.Text.Characters

/-!
# Help texts

The help of a command: what it does, how it is written, and a table each of the
commands below it, its arguments and its options. The explanations of a table
stand in one column, two spaces behind the widest of what is explained.
-/

namespace Thesaurus.CommandLine

/-- A number of spaces. -/
def spaces (n : Nat) : String := .ofList (List.replicate n ' ')

/-- One row of a table: what is explained, its width in its column, and the
explanation. -/
structure HelpRow where
  subject : String
  width : Nat
  help : String

/-- The width of the widest subject. -/
def widest (rows : List HelpRow) : Nat := rows.foldl (fun w row => max w row.width) 2

/-- The lines of a table. -/
def tableLines (rows : List HelpRow) : List String :=
  rows.map fun row => "  " ++ row.subject ++ spaces (widest rows + 2 - row.width) ++ row.help

/-- A table under its heading, none if it has no rows. -/
def tableText? (heading : String) (rows : List HelpRow) : Option String :=
  if rows.isEmpty then none
  else some (heading ++ ":\n" ++ "\n".intercalate (tableLines rows))

/-! ## Rows -/

/-- An argument as the usage shows it. -/
def ArgumentRule.text (a : ArgumentRule) : String :=
  if a.isList then "[" ++ a.placeholder ++ "]..." else "<" ++ a.placeholder ++ ">"

/-- An option with its value as the usage shows it. -/
def OptionRule.text (o : OptionRule) : String :=
  match o.kind with
  | .value placeholder => "--" ++ o.long ++ " <" ++ placeholder ++ ">"
  | _ => "--" ++ o.long

/-- The note about a default. -/
def OptionRule.defaultNote (o : OptionRule) : String :=
  match o.default with
  | some value => "[default: " ++ value ++ "]"
  | none => ""

/-- An option as a row. -/
def OptionRule.row (o : OptionRule) : HelpRow where
  subject := (match o.short with
    | some c => .ofList ['-', c, ',', ' ']
    | none => spaces 4) ++ o.text
  width := o.text.length
  help := o.help ++ (if o.help.isEmpty || o.default.isNone then "" else " ") ++ o.defaultNote

/-- The key under which an option is sorted among those of its rank: its letter,
the small one first, or its long name. -/
def OptionRule.sortKey (o : OptionRule) : String :=
  match o.short with
  | some c => .ofList [c.toLower, if c.isLower then '0' else '1']
  | none => o.long

/-- The order of options in the help. -/
def OptionRule.le (a b : OptionRule) : Bool :=
  if a.rank ≠ b.rank then decide (a.rank < b.rank) else decide (a.sortKey ≤ b.sortKey)

/-! ## The parts -/

/-- The table of the commands below. -/
def commandRows (c : CommandRule) : List HelpRow :=
  if c.commands.isEmpty then []
  else (c.commands ++ [helpCommand]).map fun below =>
    { subject := below.name, width := below.name.length, help := below.about }

/-- The table of arguments. -/
def argumentRows (c : CommandRule) : List HelpRow :=
  c.arguments.map fun a => { subject := a.text, width := a.text.length, help := a.help }

/-- The table of options. -/
def optionRows (options : List OptionRule) : List HelpRow :=
  (options.mergeSort OptionRule.le).map OptionRule.row

/-- Whether the usage mentions options that need not be given. -/
def hasFreeOptions (options : List OptionRule) : Bool :=
  options.any fun o => !o.isRequired && o.kind ≠ .showHelp && o.kind ≠ .showVersion

/-- How a command is written; `path` are the names that lead to it. -/
def usageText (path : List String) (c : CommandRule) (options : List OptionRule) : String :=
  let parts := path
    ++ (if hasFreeOptions options then ["[OPTIONS]"] else [])
    ++ (options.filter (·.isRequired)).map OptionRule.text
    ++ c.arguments.map ArgumentRule.text
    ++ (if c.commands.isEmpty then [] else ["<COMMAND>"])
  "Usage: " ++ " ".intercalate parts

/-- The help of a command. -/
def helpText (path : List String) (c : CommandRule) (options : List OptionRule) : String :=
  let tables := [
    tableText? "Commands" (commandRows c),
    tableText? "Arguments" (argumentRows c),
    tableText? "Options" (optionRows options)].filterMap id
  Text.trimmedEnd ("\n\n".intercalate ([c.about, usageText path c options] ++ tables)) ++ "\n"

end Thesaurus.CommandLine
