import HttpContract.Script.Parser
import HttpContract.Settings.LogFilter

/-!
# Settings — how the server is run

The settings of the administration, of the stubs, of scripts and of wire tests. Each setting has a
default. `Settings.check` says whether settings can be run with; the first that cannot is reported.
-/

namespace HttpContract

namespace Settings

/-- The host and the place on it at which the administration is reached. -/
structure Admin where
  host : String := "0.0.0.0"
  place : Nat := 8000

/-- How stubs are run: where they are reached if nothing else is asked for, how long open requests
may go on when a stub is stopped, and how long a body may be. -/
structure Stubs where
  host : String := "0.0.0.0"
  drainMillis : Nat := 5000
  bodyLimit : Nat := 5 * 1024 * 1024

/-- The limits of scripts. -/
structure Scripts where
  size : Nat := 256 * 1024
  depth : Nat := 64
  nodes : Nat := 20000
  millis : Nat := 1000

/-- How wire tests are run. -/
structure WireTests where
  seconds : Nat := 10
  parallel : Bool := true

end Settings

/-- The settings of the server. -/
structure Settings where
  admin : Settings.Admin := {}
  stubs : Settings.Stubs := {}
  scripts : Settings.Scripts := {}
  wireTests : Settings.WireTests := {}
  logFilter : Option String := none

namespace Settings

/-- Why settings cannot be run with. -/
inductive Flaw where
  | noAdminHost
  | noStubHost
  | noBody
  | noScripts
  | noScriptTime
  | noWireTestTime
  | logFilter (text : String)
deriving DecidableEq

/-- The text of a flaw. -/
def Flaw.message : Flaw → String
  | noAdminHost => "admin.host must not be empty"
  | noStubHost => "wirestub.host must not be empty"
  | noBody => "wirestub.max_body_bytes must be greater than 0"
  | noScripts => "sandbox limits must be greater than 0"
  | noScriptTime => "sandbox.timeout_ms must be greater than 0"
  | noWireTestTime => "wiretest.timeout_secs must be greater than 0"
  | logFilter text => "Invalid log_level '" ++ text ++ "'"

/-- Whether a text holds nothing but white space. -/
def isVacant (text : String) : Bool := text.toList.all Unicode.isWhiteSpace

/-- The flaws of settings, the first to be reported first. -/
def flaws [Library] (s : Settings) : List Flaw :=
  (if isVacant s.admin.host then [.noAdminHost] else [])
    ++ (if isVacant s.stubs.host then [.noStubHost] else [])
    ++ (if s.stubs.bodyLimit = 0 then [.noBody] else [])
    ++ (if s.scripts.size = 0 ∨ s.scripts.depth = 0 ∨ s.scripts.nodes = 0 then [.noScripts] else [])
    ++ (if s.scripts.millis = 0 then [.noScriptTime] else [])
    ++ (if s.wireTests.seconds = 0 then [.noWireTestTime] else [])
    ++ (match s.logFilter with
      | some text => if LogFilter.isLogFilter text then [] else [.logFilter text]
      | none => [])

/-- Settings that can be run with. -/
def check [Library] (s : Settings) : Except Flaw Settings :=
  match s.flaws with
  | [] => .ok s
  | flaw :: _ => .error flaw

/-- The log filter in effect. -/
def effectiveLogFilter (s : Settings) : String := s.logFilter.getD "info"

/-- The limits of scripts in effect. Their time is measured by a clock, which is no part of what a
script means; no time at all is the one limit on it that does not depend on the clock. -/
def scriptLimits (s : Settings) : Script.Limits :=
  { size := s.scripts.size, depth := s.scripts.depth, nodes := s.scripts.nodes,
    noTime := s.scripts.millis = 0 }

end Settings

end HttpContract
