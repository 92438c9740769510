import PulseCompiler.Demo
set_option autoImplicit false

/-!
# The command line and its help

The tool has two commands, `print` and `compile`, each taking one built-in program by name;
`compile` also takes the files of a setup, of input values and of a configuration, and whether
to report as JSON. A third command, `help`, prints the help of the tool or of a command.

Help comes in two forms. The summary (`-h`) puts each argument and its help on one line,
aligned in a column two spaces after the widest argument. The full help (`--help`) puts each
help on its own line, indented by ten spaces, separates the options by blank lines, lists
the programs a command takes one a line with what each shows, and shows the tool's longer
description.

A usage line names the tool and command, `[OPTIONS]` when the command has options besides
help, and the positional argument. Complaints about a command line show a usage line that
lists the options given so far instead of `[OPTIONS]`; once one of the command's own arguments
is among them, all of its own arguments are written as one alternative.
-/

namespace PulseCompiler

/-- An option of a command, known by its long name; it takes a value when it has a value
name. -/
structure OptionSpec where
  long : String
  valueName : Option String := none
  help : String
  deriving Repr, Inhabited

/-- How an option is written in usage lines and messages: `--setup <FILENAME>`, `--json`. -/
def OptionSpec.display (o : OptionSpec) : String :=
  "--" ++ o.long ++ (match o.valueName with
    | some v => " <" ++ v ++ ">"
    | none => "")

/-- A command of the tool: its name, what it does, the name of its positional argument, the
values that argument may take with what each means, and its options. Every command also has
`-h, --help`. -/
structure CommandSpec where
  name : String
  about : String
  argument : String
  choices : List (String × String)
  options : List OptionSpec
  deriving Repr, Inhabited

/-- The tool: its name, what it does in one line and at length, and its commands. -/
structure ToolSpec where
  name : String
  about : String
  longAbout : String
  commands : List CommandSpec
  deriving Repr, Inhabited

/-- The name of the help command and of the help option. -/
def helpName : String := "help"

/-- What the help command does. -/
def helpCommandAbout : String := "Print this message or the help of the given subcommand(s)"

/-- What the help option does, in the summary or the full help. -/
def helpOptionAbout (full : Bool) : String :=
  if full then "Print help (see a summary with '-h')" else "Print help (see more with '--help')"

/-- `n` blanks. -/
def spaces (n : Nat) : String := String.ofList (List.replicate n ' ')

/-- The indentation of a help on its own line. -/
def helpIndent : String := spaces 10

/-- Rows of names and helps, with helps aligned two spaces after the widest name. -/
def alignedRows (rows : List (String × String)) : String :=
  let widest := rows.foldl (fun w r => Nat.max w r.1.length) 2
  "\n".intercalate (rows.map fun (n, h) => "  " ++ n ++ spaces (widest + 2 - n.length) ++ h)

namespace CommandSpec

/-- The positional argument as written in usage lines: `<DEMO>`. -/
def argumentText (c : CommandSpec) : String := "<" ++ c.argument ++ ">"

/-- The names of the values of the positional argument. -/
def choiceNames (c : CommandSpec) : List String := c.choices.map (·.1)

/-- The option of a long name, if the command has it. -/
def option? (c : CommandSpec) (long : String) : Option OptionSpec :=
  c.options.find? (·.long == long)

/-- The long names the command knows, the help option last. -/
def longNames (c : CommandSpec) : List String := c.options.map (·.long) ++ [helpName]

/-- How an argument of the command is named in usage lines and messages; the positional
argument is named by its own name. -/
def display (c : CommandSpec) (id : String) : String :=
  if id == c.argument then c.argumentText
  else match c.option? id with
    | some o => o.display
    | none => "--" ++ id

/-- The usage line of the command in its help. -/
def usage (tool : String) (c : CommandSpec) : String :=
  tool ++ " " ++ c.name ++ (if c.options.isEmpty then "" else " [OPTIONS]") ++ " " ++
    c.argumentText

/-- Whether an argument is one of the command's own, rather than the help option. -/
def isOwn (c : CommandSpec) (id : String) : Bool := id == c.argument || (c.option? id).isSome

/-- The command's own arguments as one alternative, the positional argument first:
`<DEMO|--setup <FILENAME>|--json>`. -/
def groupText (c : CommandSpec) : String :=
  "<" ++ "|".intercalate (c.argument :: c.options.map (·.display)) ++ ">"

/-- The usage line of a complaint about missing arguments: the arguments given so far, each
once, in place of [OPTIONS], then the positional argument; the usage line of the help when
none were given. -/
def usageListed (tool : String) (c : CommandSpec) (given : List String) : String :=
  if given.isEmpty then c.usage tool
  else
    tool ++ " " ++ c.name ++
      String.join ((given.filter (· != c.argument)).eraseDups.map fun id => " " ++ c.display id) ++
      " " ++ c.argumentText

/-- The usage line of a complaint about an argument, given the arguments taken so far and
the one being complained about. Once one of the command's own arguments has been taken
(`grouped`) they count as one, written as the alternative of all of them after the other
arguments; before that the line is as for missing arguments. -/
def usageGiven (tool : String) (c : CommandSpec) (grouped : Bool) (taken current : List String) :
    String :=
  if grouped then
    tool ++ " " ++ c.name ++
      String.join (((taken ++ current).filter (!c.isOwn ·)).eraseDups.map fun id =>
        " " ++ c.display id) ++
      " " ++ c.groupText
  else c.usageListed tool (taken ++ current)

/-- The summary help of the command. -/
def summary (tool : String) (c : CommandSpec) : String :=
  let optionRows := c.options.map (fun o => ("    " ++ o.display, o.help)) ++
    [("-h, --help", helpOptionAbout false)]
  c.about ++ "\n\nUsage: " ++ c.usage tool ++ "\n\nArguments:\n" ++
    alignedRows [(c.argumentText, "[possible values: " ++ ", ".intercalate c.choiceNames ++ "]")] ++
    "\n\nOptions:\n" ++ alignedRows optionRows ++ "\n"

/-- The values of the positional argument one a line, with what each means aligned. -/
def choiceLines (c : CommandSpec) : String :=
  let widest := c.choices.foldl (fun w ch => Nat.max w ch.1.length) 0
  String.join (c.choices.map fun (n, h) =>
    "\n" ++ helpIndent ++ "- " ++ n ++ ": " ++ spaces (widest - n.length) ++ h)

/-- The full help of the command. -/
def fullHelp (tool : String) (c : CommandSpec) : String :=
  let optionRows :=
    c.options.map (fun o => "      " ++ o.display ++ "\n" ++ helpIndent ++ o.help) ++
    ["  -h, --help\n" ++ helpIndent ++ helpOptionAbout true]
  c.about ++ "\n\nUsage: " ++ c.usage tool ++ "\n\nArguments:\n  " ++ c.argumentText ++ "\n" ++
    helpIndent ++ "Possible values:" ++ c.choiceLines ++
    "\n\nOptions:\n" ++ "\n\n".intercalate optionRows ++ "\n"

end CommandSpec

namespace ToolSpec

/-- The command of a name; the help command is not among them. -/
def command? (t : ToolSpec) (n : String) : Option CommandSpec := t.commands.find? (·.name == n)

/-- The names of the commands, the help command last. -/
def commandNames (t : ToolSpec) : List String := t.commands.map (·.name) ++ [helpName]

/-- The usage line of the tool. -/
def usage (t : ToolSpec) : String := t.name ++ " <COMMAND>"

/-- The usage line of a complaint about a use of the help option with a value. -/
def usageWithHelp (t : ToolSpec) : String := t.name ++ " --help <COMMAND>"

/-- The commands one a line with what each does. -/
def commandRows (t : ToolSpec) : String :=
  alignedRows (t.commands.map (fun c => (c.name, c.about)) ++ [(helpName, helpCommandAbout)])

/-- The summary help of the tool. -/
def summary (t : ToolSpec) : String :=
  t.about ++ "\n\nUsage: " ++ t.usage ++ "\n\nCommands:\n" ++ t.commandRows ++
    "\n\nOptions:\n" ++ alignedRows [("-h, --help", helpOptionAbout false)] ++ "\n"

/-- The full help of the tool. -/
def fullHelp (t : ToolSpec) : String :=
  t.longAbout ++ "\n\nUsage: " ++ t.usage ++ "\n\nCommands:\n" ++ t.commandRows ++
    "\n\nOptions:\n  -h, --help\n" ++ helpIndent ++ helpOptionAbout true ++ "\n"

/-- The usage line of the help command. -/
def helpUsage (t : ToolSpec) : String := t.name ++ " " ++ helpName ++ " [COMMAND]..."

/-- The help of the help command. -/
def helpCommandHelp (t : ToolSpec) : String :=
  helpCommandAbout ++ "\n\nUsage: " ++ t.helpUsage ++ "\n\nArguments:\n" ++
    alignedRows [("[COMMAND]...", "Print help for the subcommand(s)")] ++ "\n"

end ToolSpec

/-- The `print` command. -/
def printCommand : CommandSpec where
  name := "print"
  about := "Print a built-in program"
  argument := "DEMO"
  choices := Demo.all.map fun d => (d.name, d.about)
  options := []

/-- The `compile` command. -/
def compileCommand : CommandSpec where
  name := "compile"
  about := "Compile a built-in program"
  argument := "DEMO"
  choices := Demo.all.map fun d => (d.name, d.about)
  options := [
    { long := "setup", valueName := some "FILENAME"
      help := "Setup JSON file. A two-instrument setup is used if omitted" },
    { long := "inputs", valueName := some "FILENAME", help := "JSON object of input values" },
    { long := "config", valueName := some "FILENAME", help := "Compiler configuration JSON file" },
    { long := "json", help := "Print reports as JSON" }]

/-- The demo compiler's command line. -/
def demoTool : ToolSpec where
  name := "oqpc"
  about := "Demo of the OpenPulse multi-core compiler on built-in programs."
  longAbout := "Demo of the OpenPulse multi-core compiler on built-in programs.\n\n" ++
    "Parsing OpenPulse text is not part of this compiler, so the demo compiles programs\n" ++
    "built in. " ++ "`print` shows a program. `compile` splits it for the cores of a setup and\n" ++
    "prints the program, elimination report and command table of each core.\n"
  commands := [printCommand, compileCommand]

end PulseCompiler
