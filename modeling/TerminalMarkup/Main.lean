import TerminalMarkup.CommandLine.Run

/-!
# The program

The program reads its arguments, gets what the request needs from around it, and writes the answer. It ends with 0, or
with 1 after a failure, or with 2 when the arguments ask for nothing that it does.
-/

namespace TerminalMarkup

namespace CommandLine

/-- The kind of an error that reading a file has raised. -/
def fileError : IO.Error → FileError
  | .noFileOrDirectory .. => .notFound
  | .inappropriateType _ 21 _ => .isDirectory
  | .inappropriateType .. => .notDirectory
  | _ => .notFound

/-- Reads a file. -/
def readFile (path : Text) : IO (Except FileError (List UInt8)) := do
  try
    let content ← IO.FS.readBinFile (String.ofList path)
    pure (.ok content.toList)
  catch e => pure (.error (fileError e))

/-- The variables that the program looks at. -/
def variableNames : List String := ["NO_COLOR", "CLICOLOR_FORCE", "COLORTERM", "TERM"]

/-- Looks at the variables and the standard output. -/
def readEnvironment : IO Environment := do
  let values ← variableNames.filterMapM fun name => do
    pure ((← IO.getEnv name).map fun value => (name.toList, value.toList))
  pure ⟨.ofList values, ← (← IO.getStdout).isTty⟩

/-- Gets what a command needs. -/
def readSurroundings (c : Command) : IO Surroundings := do
  let environment ← readEnvironment
  let content ← match c.path? with
    | some path => readFile path
    | none => pure (.error .notFound)
  let input ← if c.readsInput then (← IO.getStdin).readBinToEnd else pure .empty
  pure ⟨environment, fun _ => content, input.toList⟩

/-- Writes an answer. -/
def writeAnswer (answer : Except Failure Text) : IO UInt32 := do
  match answer with
  | .ok s =>
    IO.print (String.ofList s)
    pure 0
  | .error e =>
    IO.eprintln (String.ofList e.message)
    pure 1

/-- Answers the arguments. -/
def respond (args : List String) : IO UInt32 := do
  match Request.ofArguments? (args.map String.toList) with
  | some (.run c) => writeAnswer (c.run (← readSurroundings c))
  | some .version => writeAnswer (.ok versionText)
  | some .help => writeAnswer (.ok helpText)
  | none =>
    IO.eprint (String.ofList helpText)
    pure 2

end CommandLine
end TerminalMarkup

/-- The program. -/
def main (args : List String) : IO UInt32 := TerminalMarkup.CommandLine.respond args
