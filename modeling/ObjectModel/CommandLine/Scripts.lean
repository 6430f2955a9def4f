import ObjectModel.CommandLine.Arguments
import ObjectModel.Config.Load
import ObjectModel.Sandbox.Execution
import ObjectModel.Script.Reader

/-!
Running scripts from the command line.

Scripts run one after the other in one sandbox, if its memory has room for the sandbox itself. The counters
start afresh for each script, and the lines it printed are written before its outcome is looked at; the first
script that cannot be read or fails ends the run. The surroundings (files and output, the clock, and the memory
that a new sandbox takes) are a `Host` in any monad, so that the same definition drives the program and an account
of what it reads and writes.
-/

namespace ObjectModel.CommandLine

open Script

/-- What running scripts needs of its surroundings. -/
structure Host (m : Type → Type) where
  settings : String → m Config.File
  /-- Read a script; nothing if that is impossible. -/
  script : String → m (Option Program)
  write : String → m Unit
  clock : Sandbox.Clock := Sandbox.nominalClock
  /-- Memory that a new sandbox takes, in bytes. -/
  startup : Nat := Sandbox.startup

inductive Failure where
  | configuration
  | creation (e : Sandbox.RunError)
  | unreadable (script : String)
  | failed (script : String) (e : Sandbox.RunError)

inductive Outcome where
  | finished
  | misuse
  | failed (why : Failure)

namespace Failure

def message : Failure → String
  | .configuration => "loading configuration"
  | .creation e => "creating sandbox: " ++ e.message
  | .unreadable name => "reading " ++ name
  | .failed name e => "running " ++ name ++ ": " ++ e.message

end Failure

namespace Outcome

def exitCode : Outcome → UInt8
  | .finished => 0
  | .failed _ => 1
  | .misuse => 2

def message : Outcome → Option String
  | .failed why => some why.message
  | _ => none

end Outcome

def versionLine : String := "classkit 0.1.0"

def usageLine : String := "Usage: classkit [--config FILE] SCRIPT..."

variable {m : Type → Type} [Monad m]

/-- Run scripts in a world, up to the first that cannot be read or fails. -/
def runScripts (host : Host m) (limits : Sandbox.Limits) :
    List String → World → m (Option Failure × World)
  | [], w => return (none, w)
  | name :: rest, w => do
    match ← host.script name with
    | none => return (some (.unreadable name), w)
    | some program =>
      let fresh := { w with registry := { w.registry with metering := {} } }
      let (result, after) := Sandbox.execute limits program fresh
      let (lines, w') := Sandbox.takeOutput after
      lines.forM host.write
      match result with
      | .error e => return (some (.failed name e), w')
      | .ok _ => runScripts host limits rest w'

/-- The settings file that was asked for. -/
def Host.chosen (host : Host m) : Option String → m Config.File
  | none => pure .missing
  | some name => host.settings name

/-- Load the configuration and run scripts in a new sandbox. -/
def runConfigured (host : Host m) (env : List (String × String)) (settingsFile : Option String)
    (scripts : List String) : m Outcome := do
  match Config.load (← host.chosen settingsFile) env with
  | .error _ => return .failed .configuration
  | .ok config =>
    match Sandbox.create config.sandbox host.clock host.startup with
    | .error e => return .failed (.creation e)
    | .ok w =>
      match ← runScripts host config.sandbox scripts w with
      | (some why, _) => return .failed why
      | (none, _) => return .finished

def run (host : Host m) (env : List (String × String)) (args : List String) : m Outcome := do
  match Request.ofArguments args with
  | .version =>
    host.write versionLine
    return .finished
  | .help =>
    host.write usageLine
    return .finished
  | .misuse => return .misuse
  | .run settingsFile scripts => runConfigured host env settingsFile scripts

end ObjectModel.CommandLine
