import PulseCompiler.Cli.Run

/-!
# The demo compiler's entry point

Reads the command line, reads the files it names, runs it, and prints what the run printed.
-/

open PulseCompiler

/-- The files a command line names, with their contents where they can be read. -/
def readNamedFiles (i : Invocation) : IO (List (String × String)) := do
  let paths := match i with
    | .compile r => [r.setup, r.inputs, r.config].filterMap id
    | .print _ => []
  paths.filterMapM fun (p : String) => do
    try
      let text ← IO.FS.readFile p
      pure (some (p, text))
    catch _ => pure none

/-- Runs the demo compiler. -/
def main (args : List String) : IO UInt32 := do
  let outcome ← match readCommandLine args with
    | .error o => pure o
    | .ok i => do
      let files ← readNamedFiles i
      pure (i.run fun p => files.lookup p)
  IO.print outcome.stdout
  IO.eprint outcome.stderr
  pure outcome.status.toUInt32
