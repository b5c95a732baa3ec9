import HttpContract.CommandLine
import HttpContract.Console
import HttpContract.Library.Simple

/-!
# Main — the program

Reads the settings and then answers the requests on standard input, one a line, until it ends.
-/

open HttpContract

attribute [local instance] Library.simple

/-- The text of the settings file, if one is named. -/
def settingsText (line : CommandLine) : IO (Option String) := do
  match line.settingsFile with
  | none => return none
  | some file => return some (← IO.FS.readFile file)

/-- A source of random numbers, made from random bytes. -/
def randomDraws : IO Draws := do
  let seed := (← IO.getRandomBytes 8).toList.foldl (fun n b => n * 256 + b.toNat) 0
  return ⟨fun i => (mixHash (hash seed) (hash i)).toNat, 0⟩

/-- Answers the lines of standard input. -/
partial def answerLines (settings : Settings) (now : Calendar.Instant) (draws : Draws)
    (state : Console.State) : IO Unit := do
  let line ← (← IO.getStdin).getLine
  if line.isEmpty then return
  let (answer, state) := Console.answerLine settings now draws state line.trimAscii.toString
  let output ← IO.getStdout
  output.putStrLn answer
  output.flush
  answerLines settings now draws state

/-- Runs the program. -/
def main (arguments : List String) : IO UInt32 := do
  match CommandLine.ofArguments? arguments with
  | none =>
    IO.eprintln CommandLine.usage
    return 2
  | some line =>
    match line.settings (← settingsText line) with
    | .error message =>
      IO.eprintln ("Failed to load configuration: " ++ message)
      return 1
    | .ok settings =>
      answerLines settings ⟨line.now, 0⟩ (← randomDraws) {}
      return 0
