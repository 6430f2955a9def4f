import ObjectModel.CommandLine.Scripts
import ObjectModel.Config.Toml

/-!
The program: scripts named on the command line are run in one sandbox.

A script is a file with nested arrays, a settings file is in the notation of `Config.Toml`. Lines go to the
standard output, the reason of a failure to the standard error.
-/

namespace ObjectModel.CommandLine

/-- A variable and its value, from an entry of the environment. -/
def assignment? (entry : List Char) : Option (String × String) :=
  match entry.dropWhile (· ≠ '=') with
  | _ :: value => some (String.ofList (entry.takeWhile (· ≠ '=')), String.ofList value)
  | [] => none

/-- The variables of the environment, in its order; none if they cannot be listed. -/
def readVariables : IO (List (String × String)) := do
  match ← (IO.FS.readBinFile "/proc/self/environ").toBaseIO with
  | .error _ => return []
  | .ok bytes =>
    let entries := bytes.toList.splitBy fun a b => a ≠ 0 && b ≠ 0
    return entries.filterMap fun entry =>
      (String.fromUTF8? ⟨(entry.filter (· ≠ 0)).toArray⟩).bind fun s => assignment? s.toList

/-- Read a file as text; nothing if that is impossible. -/
def readText? (name : String) : IO (Option String) := do
  match ← (IO.FS.readFile name).toBaseIO with
  | .ok text => return some text
  | .error _ => return none

def console : Host IO where
  settings name := do
    match ← readText? name with
    | some text => return .ofText text
    | none => return .missing
  script name := do
    return (← readText? name).map fun text => (Script.Program.read? text).getD ⟨[.malformed]⟩
  write line := IO.println line

end ObjectModel.CommandLine

open ObjectModel.CommandLine

def main (args : List String) : IO UInt32 := do
  let outcome ← run console (← readVariables) args
  match outcome with
  | .finished => pure ()
  | .misuse => IO.eprintln usageLine
  | .failed why => IO.eprintln ("Error: " ++ why.message)
  return outcome.exitCode.toUInt32
