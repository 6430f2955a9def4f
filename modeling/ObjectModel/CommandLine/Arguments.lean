/-!
Arguments of the command line.

Options may come anywhere before a double dash; every other argument names a script. The settings file is an
option with a value, given at most once and never empty; at least one script is wanted, and none without a
name. Asking for the version or for help ends the reading of arguments, whatever follows.
-/

namespace ObjectModel.CommandLine

inductive Request where
  | version
  | help
  | misuse
  | run (settingsFile : Option String) (scripts : List String)
  deriving DecidableEq, Repr

inductive Argument where
  | version
  | help
  /-- The settings file, with its name if that is part of the argument. -/
  | settings (attached : Option String)
  /-- Everything after this is a script. -/
  | endOfOptions
  | unknown
  | script (name : String)
  deriving DecidableEq, Repr

namespace Argument

def afterEquals (cs : List Char) : List Char :=
  match cs with
  | '=' :: rest => rest
  | _ => cs

def ofText (arg : String) : Argument :=
  match arg.toList with
  | '-' :: '-' :: [] => .endOfOptions
  | '-' :: '-' :: long =>
    let name := long.takeWhile (· ≠ '=')
    let value := long.dropWhile (· ≠ '=')
    if name = "config".toList then
      .settings (if value.isEmpty then none else some (String.ofList (afterEquals value)))
    else if name = "version".toList && value.isEmpty then .version
    else if name = "help".toList && value.isEmpty then .help
    else .unknown
  | '-' :: 'V' :: _ => .version
  | '-' :: 'h' :: _ => .help
  | '-' :: 'c' :: value =>
    .settings (if value.isEmpty then none else some (String.ofList (afterEquals value)))
  | '-' :: _ :: _ => .unknown
  | _ => .script arg

/-- Whether an argument can be the value of the option before it. -/
def isValue : Argument → Bool
  | .script name => name ≠ ""
  | _ => false

end Argument

namespace Request

/-- A request for scripts, if there are any and each has a name. -/
def ofScripts (settingsFile : Option String) (scripts : List String) : Request :=
  if scripts.isEmpty || scripts.contains "" then .misuse else .run settingsFile scripts

/-- Read arguments; `scripts` holds in reverse those that were read already. -/
def read (settingsFile : Option String) (scripts : List String) : List String → Request
  | [] => ofScripts settingsFile scripts.reverse
  | arg :: rest =>
    match Argument.ofText arg with
    | .version => .version
    | .help => .help
    | .unknown => .misuse
    | .endOfOptions => ofScripts settingsFile (scripts.reverse ++ rest)
    | .script name => if name = "" then .misuse else read settingsFile (name :: scripts) rest
    | .settings (some name) =>
      if settingsFile.isSome || name = "" then .misuse else read (some name) scripts rest
    | .settings none =>
      match rest with
      | [] => .misuse
      | name :: more =>
        if settingsFile.isSome || !(Argument.ofText name).isValue then .misuse
        else read (some name) scripts more

def ofArguments (args : List String) : Request := read none [] args

end Request

end ObjectModel.CommandLine
