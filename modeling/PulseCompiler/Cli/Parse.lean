import PulseCompiler.Cli.Spec
import PulseCompiler.Cli.Similarity
set_option autoImplicit false

/-!
# Reading the command line

The first argument names a command, or is `-h`, `--help` or `help`. A command then reads its
arguments left to right:

* `--` makes every later argument positional;
* `--name` and `--name=value` are options, `-h` (also first in a group such as `-hx`) asks for
  the summary help and `--help` for the full help;
* an option that takes a value and has none attached takes the next argument that is not an
  option;
* the first positional argument is the program; a second is a mistake.

An argument's value is checked when the next argument starts being read, or at the end: a
program must be one of the built-in names and a file name must not be empty. An option given
twice is a mistake, and so is a missing program.

Help is printed to standard output and ends the run successfully. A mistake is printed to
standard error with a usage line, and the run fails with status 2; so does a command line that
names no command, after printing the summary help. A mistyped name is answered with the names
it resembles.
-/

namespace PulseCompiler

/-- What a run of the tool printed and how it ended. -/
structure Outcome where
  status : Nat
  stdout : String := ""
  stderr : String := ""
  deriving Repr, DecidableEq, Inhabited

/-- A complaint about a command line: its headline, the names resembling a mistyped one with
the kind of name they are, hints, and a usage line. -/
structure UsageError where
  headline : String
  similar : Option (String × List String) := none
  tips : List String := []
  usage : Option String := none
  deriving Repr, Inhabited

/-- A name in quotes. -/
def quoted (s : String) : String := "'" ++ s ++ "'"

/-- The text of a complaint. -/
def UsageError.text (e : UsageError) : String :=
  let similar := match e.similar with
    | some (kind, [n]) => "\n\n  tip: a similar " ++ kind ++ " exists: " ++ quoted n
    | some (kind, ns) =>
      "\n\n  tip: some similar " ++ kind ++ "s exist: " ++ ", ".intercalate (ns.map quoted)
    | none => ""
  let tips := (if e.similar.isNone && !e.tips.isEmpty then "\n" else "") ++
    String.join (e.tips.map fun t => "\n  tip: " ++ t)
  let usage := match e.usage with
    | some u => "\n\nUsage: " ++ u
    | none => ""
  "error: " ++ e.headline ++ similar ++ tips ++ usage ++ "\n\nFor more information, try '--help'.\n"

/-- The end of a run by a complaint. -/
def UsageError.outcome (e : UsageError) : Outcome := { status := 2, stderr := e.text }

/-- The end of a run by printing help. -/
def helpOutcome (text : String) : Outcome := { status := 0, stdout := text }

/-- A complaint about an argument that is not one the command knows. -/
def unexpectedArgument (arg : String) (usage : String) (tips : List String := []) : UsageError :=
  { headline := "unexpected argument " ++ quoted arg ++ " found", tips, usage := some usage }

/-- A complaint about a value attached to an option that takes none. -/
def unexpectedValue (value option usage : String) : UsageError :=
  { headline := "unexpected value " ++ quoted value ++ " for " ++ quoted option ++
      " found; no more were expected"
    usage := some usage }

/-- The hint to pass an argument that looks like an option as a value. -/
def escapeTip (arg : String) : String :=
  "to pass " ++ quoted arg ++ " as a value, use " ++ quoted ("-- " ++ arg)

/-- A long option split into its name and the value attached with `=`. -/
def splitLong (body : String) : String × Option String :=
  match body.splitOn "=" with
  | [name] => (name, none)
  | name :: rest => (name, some ("=".intercalate rest))
  | [] => ("", none)

/-- What `compile` was asked to do: the program, the files to read, and whether to report as
JSON. -/
structure CompileRequest where
  demo : Demo
  setup : Option String := none
  inputs : Option String := none
  config : Option String := none
  json : Bool := false
  deriving Repr, DecidableEq, Inhabited

/-- A command line read successfully. -/
inductive Invocation where
  | print (demo : Demo)
  | compile (request : CompileRequest)
  deriving Repr, DecidableEq, Inhabited

/-- The arguments of a command read so far. -/
structure Scan where
  /-- Arguments given, by name, with their values, in the order given. -/
  given : List (String × List String) := []
  /-- The argument whose values are still to be checked. -/
  pending : Option (String × List String) := none
  /-- Whether the positional argument has been given. -/
  placed : Bool := false
  /-- Whether `--` has been read. -/
  escaped : Bool := false
  /-- Whether one of the command's own arguments has been taken, even if it was then refused
  or taken back as a repetition; from then on complaints write them as one group. -/
  grouped : Bool := false
  deriving Repr, Inhabited

namespace Scan

/-- The names of the arguments given. -/
def names (s : Scan) : List String := s.given.map (·.1)

/-- The values of an argument given. -/
def values? (s : Scan) (id : String) : Option (List String) := s.given.lookup id

/-- Whether the pending option still waits for its value. -/
def awaiting (s : Scan) : Bool :=
  match s.pending with
  | some (_, []) => true
  | _ => false

end Scan

namespace CommandSpec

/-- Whether an argument of the command takes a value. -/
def takesValue (c : CommandSpec) (id : String) : Bool :=
  id == c.argument || (c.option? id).any (·.valueName.isSome)

/-- The complaint about a missing or empty value. -/
def emptyValue (c : CommandSpec) (id : String) : UsageError :=
  { headline := "a value is required for " ++ quoted (c.display id) ++ " but none was supplied" }

/-- Checks the value of an argument: the program must be a known name, a file name must not be
empty. -/
def checkValue (c : CommandSpec) (id : String) (v : String) : Option UsageError :=
  if id == c.argument then
    if c.choiceNames.contains v then none
    else
      let head := if v.isEmpty then "a value is required for " ++ quoted c.argumentText ++
          " but none was supplied"
        else "invalid value " ++ quoted v ++ " for " ++ quoted c.argumentText
      some { headline := head ++ "\n  [possible values: " ++ ", ".intercalate c.choiceNames ++ "]"
             similar := (similarNames v c.choiceNames).getLast?.map fun n => ("value", [n]) }
  else if c.takesValue id && v.isEmpty then some (c.emptyValue id)
  else none

/-- Records an argument with its values, after checking them; a complaint comes with the scan as
it stands after the failed attempt. -/
def accept (tool : String) (c : CommandSpec) (s : Scan) (id : String) (vals : List String) :
    Scan × Option UsageError :=
  if c.takesValue id && vals.isEmpty then (s, some (c.emptyValue id))
  else if s.names.contains id then
    ({ s with given := s.given.filter (·.1 != id) },
     some { headline := "the argument " ++ quoted (c.display id) ++ " cannot be used multiple times"
            usage := some (c.usage tool) })
  else
    let grouped := s.grouped || c.isOwn id
    match vals.findSome? (c.checkValue id) with
    | some e => ({ s with given := s.given ++ [(id, [])], grouped }, some e)
    | none => ({ s with given := s.given ++ [(id, vals)], grouped }, none)

/-- Checks and records the pending argument. -/
def settle (tool : String) (c : CommandSpec) (s : Scan) : Scan × Option UsageError :=
  match s.pending with
  | none => (s, none)
  | some (id, vals) => c.accept tool { s with pending := none } id vals

/-- Checks and records the pending argument, failing on a complaint. -/
def settled (tool : String) (c : CommandSpec) (s : Scan) : Except Outcome Scan :=
  match c.settle tool s with
  | (_, some e) => .error e.outcome
  | (s, none) => .ok s

/-- Records an argument, failing on a complaint. -/
def accepted (tool : String) (c : CommandSpec) (s : Scan) (id : String) (vals : List String) :
    Except Outcome Scan :=
  match c.accept tool s id vals with
  | (_, some e) => .error e.outcome
  | (s, none) => .ok s

/-- The complaint about an unknown long option, suggesting a similar one. -/
def unknownLong (tool : String) (c : CommandSpec) (s : Scan) (name : String) : UsageError :=
  let arg := "--" ++ name
  match (similarNames name c.longNames).getLast? with
  | some flag =>
    let given := if s.names.contains flag then s.names else s.names ++ [flag]
    { unexpectedArgument arg (c.usageGiven tool (s.grouped || c.isOwn flag) given []) with
      similar := some ("argument", ["--" ++ flag]) }
  | none => unexpectedArgument arg (c.usageGiven tool s.grouped s.names []) [escapeTip arg]

/-- The complaint about a missing program, or the scan when it is there. -/
def complete (tool : String) (c : CommandSpec) (s : Scan) : Except Outcome Scan := do
  let s ← c.settled tool s
  if s.names.contains c.argument then pure s
  else
    throw (UsageError.outcome
      { headline := "the following required arguments were not provided:\n  " ++ c.argumentText
        usage := some (c.usageListed tool (s.names ++ [c.argument])) })

/-- Reads a long option. -/
def scanLong (tool : String) (c : CommandSpec) (s : Scan) (body : String) :
    Except Outcome Scan := do
  let (name, value) := splitLong body
  if name == helpName then
    match value with
    | some v =>
      throw (unexpectedValue v "--help" (c.usageGiven tool s.grouped s.names [helpName])).outcome
    | none =>
      let _ ← c.settled tool s
      throw (helpOutcome (c.fullHelp tool))
  match c.option? name with
  | none => throw (c.unknownLong tool (c.settle tool s).1 name).outcome
  | some o =>
    match o.valueName, value with
    | some _, some v => c.accepted tool (← c.settled tool s) name [v]
    | some _, none => pure { (← c.settled tool s) with pending := some (name, []) }
    | none, some v =>
      throw (unexpectedValue v o.display (c.usageGiven tool s.grouped s.names [name])).outcome
    | none, none => c.accepted tool (← c.settled tool s) name ["true"]

/-- Reads one argument of a command. -/
def scanOne (tool : String) (c : CommandSpec) (s : Scan) (a : String) : Except Outcome Scan := do
  if !s.escaped then
    if a == "--" then return { s with escaped := true }
    if a.startsWith "--" then return ← c.scanLong tool s (a.drop 2).toString
    if a.startsWith "-" && a.length > 1 then
      let flag := (a.drop 1).toString.take 1
      if flag == "h" then
        let _ ← c.settled tool s
        throw (helpOutcome (c.summary tool))
      throw (unexpectedArgument ("-" ++ flag) (c.usage tool) [escapeTip ("-" ++ flag)]).outcome
    if s.awaiting then
      return { s with pending := s.pending.map fun (id, _) => (id, [a]) }
  if s.placed then throw (unexpectedArgument a (c.usage tool)).outcome
  pure { (← c.settled tool s) with pending := some (c.argument, [a]), placed := true }

/-- Reads the arguments of a command. -/
def scanAll (tool : String) (c : CommandSpec) : Scan → List String → Except Outcome Scan
  | s, [] => c.complete tool s
  | s, a :: rest => do scanAll tool c (← c.scanOne tool s a) rest

end CommandSpec

namespace ToolSpec

/-- The help the help command prints for the commands it names. -/
def helpFor (t : ToolSpec) : List String → Outcome
  | [] => helpOutcome t.fullHelp
  | n :: rest =>
    let unknown (name usage : String) : Outcome :=
      UsageError.outcome
        { headline := "unrecognized subcommand " ++ quoted name, usage := some usage }
    match t.command? n, rest with
    | some c, [] => helpOutcome (c.fullHelp t.name)
    | some c, m :: _ => unknown m (c.usage t.name)
    | none, [] => if n == helpName then helpOutcome t.helpCommandHelp else unknown n t.usage
    | none, m :: _ => if n == helpName then unknown m t.helpUsage else unknown n t.usage

/-- The complaint about an unknown long option of the tool, suggesting a similar one of the
tool or of a command named later on the line. -/
def unknownLong (t : ToolSpec) (name : String) (later : List String) : UsageError :=
  let arg := "--" ++ name
  match (similarNames name [helpName]).getLast? with
  | some flag =>
    { unexpectedArgument arg t.usageWithHelp with similar := some ("argument", ["--" ++ flag]) }
  | none =>
    let found := t.commands.filterMap fun c =>
      match (similarNames name c.longNames).getLast?, later.idxOf? c.name with
      | some flag, some pos => some (pos, c.name ++ " --" ++ flag)
      | _, _ => none
    let best := found.foldl (fun (acc : Option (Nat × String)) x =>
      match acc with
      | some y => if x.1 < y.1 then some x else some y
      | none => some x) none
    match best with
    | some (_, hint) => unexpectedArgument arg t.usage [quoted hint ++ " exists"]
    | none => unexpectedArgument arg t.usage

/-- The complaint about an argument that names no command. -/
def unknownCommand (t : ToolSpec) (a : String) (escaped : Bool) : UsageError :=
  if escaped && t.commandNames.contains a then
    unexpectedArgument "--" t.usage
      ["subcommand " ++ quoted a ++ " exists; to use it, remove the " ++ quoted "--" ++
        " before it"]
  else
    match similarNames a t.commandNames with
    | [] => { headline := "unrecognized subcommand " ++ quoted a, usage := some t.usage }
    | ns => { headline := "unrecognized subcommand " ++ quoted a, similar := some ("subcommand", ns)
              usage := some t.usage }

/-- Reads the arguments of a command into what the tool is to do. -/
def invocation (t : ToolSpec) (c : CommandSpec) (args : List String) :
    Except Outcome Invocation := do
  let s ← c.scanAll t.name {} args
  let value (id : String) : Option String := (s.values? id).bind (·.head?)
  match (value c.argument).bind Demo.named? with
  | none => throw (UsageError.outcome { headline := "the program is missing" })
  | some d =>
    if c.name == printCommand.name then pure (.print d)
    else pure (.compile { demo := d, setup := value "setup", inputs := value "inputs"
                          config := value "config", json := (s.values? "json").isSome })

/-- Reads a command line, up to its command. -/
def read (t : ToolSpec) : Bool → List String → Except Outcome Invocation
  | _, [] => throw { status := 2, stderr := t.summary }
  | true, a :: _ => throw (t.unknownCommand a true).outcome
  | false, a :: rest =>
    if a == helpName then throw (t.helpFor rest)
    else match t.command? a with
    | some c => t.invocation c rest
    | none =>
      if a == "--" then read t true rest
      else if a.startsWith "--" then
        match splitLong (a.drop 2).toString with
        | (name, some v) =>
          if name == helpName then throw (unexpectedValue v "--help" t.usageWithHelp).outcome
          else throw (t.unknownLong name rest).outcome
        | (name, none) =>
          if name == helpName then throw (helpOutcome t.fullHelp)
          else throw (t.unknownLong name rest).outcome
      else if a.startsWith "-" && a.length > 1 then
        let flag := (a.drop 1).toString.take 1
        if flag == "h" then throw (helpOutcome t.summary)
        else throw (unexpectedArgument ("-" ++ flag) t.usage).outcome
      else throw (t.unknownCommand a false).outcome

end ToolSpec

/-- Reads the demo compiler's command line. -/
def readCommandLine (args : List String) : Except Outcome Invocation := demoTool.read false args

end PulseCompiler
