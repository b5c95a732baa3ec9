import HttpContract.Settings.Reader

/-!
# CommandLine — the options of the program

Options say which settings file is read and what is set besides. What is set on the command line
counts more than what is set in the file.
-/

namespace HttpContract

/-- What the command line says. -/
structure CommandLine where
  settingsFile : Option String := none
  host : Option String := none
  place : Option Nat := none
  logFilter : Option String := none
  now : Nat := 0

namespace CommandLine

/-- How the program is used. -/
def usage : String :=
  "options: -c|--config FILE, --host HOST, -p|--port NUMBER, --log-level FILTER, --now SECONDS"

/-- A number from 0 up to a limit. -/
def number? (limit : Nat) (text : String) : Option Nat :=
  (Settings.digits? 10 text.toList).filter (· ≤ limit)

/-- Sets an option. -/
def set? (line : CommandLine) (option value : String) : Option CommandLine :=
  match option with
  | "-c" => some { line with settingsFile := some value }
  | "--config" => some { line with settingsFile := some value }
  | "--host" => some { line with host := some value }
  | "-p" => (number? 65535 value).map fun place => { line with place := some place }
  | "--port" => (number? 65535 value).map fun place => { line with place := some place }
  | "--log-level" => some { line with logFilter := some value }
  | "--now" => (number? 253402300799 value).map fun now => { line with now }
  | _ => none

/-- Reads options, each with its value behind it. -/
def readFrom? (line : CommandLine) : List String → Option CommandLine
  | [] => some line
  | [_] => none
  | option :: value :: rest =>
    match line.set? option value with
    | some line => line.readFrom? rest
    | none => none

/-- The options on a command line. -/
def ofArguments? (arguments : List String) : Option CommandLine := readFrom? {} arguments

/-- Settings with what is set on the command line. -/
def applyTo (line : CommandLine) (s : Settings) : Settings :=
  { s with
    admin := ⟨line.host.getD s.admin.host, line.place.getD s.admin.place⟩
    logFilter := line.logFilter.or s.logFilter }

/-- The message of an error in a settings file. -/
def loadMessage : Settings.LoadError → String
  | .unreadable => "the settings file cannot be read"
  | .flawed flaw => flaw.message

/-- The settings to run with, from the text of the settings file if there is one. -/
def settings [Library] (line : CommandLine) (file : Option String) : Except String Settings := do
  let s ← match file with
    | none => .ok {}
    | some text => (Settings.load text).mapError loadMessage
  (line.applyTo s).check.mapError Settings.Flaw.message

end CommandLine

end HttpContract
