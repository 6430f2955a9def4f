import ObjectModel.Config.Environment
import ObjectModel.Sandbox.Limits

/-!
The configuration and how it is loaded.

Defaults come first, then a settings file, then the environment; each is laid over what came before. The
result is read key by key in alphabetical order, and the first setting that is not what its key wants is the
error. Keys that mean nothing are ignored. The limits of the sandbox may also be given as a list, whose
items fill them in their order.
-/

namespace ObjectModel

structure Config where
  logFilter : String := "classkit=info"
  sandbox : Sandbox.Limits := {}
  deriving DecidableEq, Repr, Inhabited

namespace Config

inductive Wanted where
  | text
  | count
  | size
  | limits
  deriving DecidableEq, Repr

def Wanted.name : Wanted → String
  | .text => "a string"
  | .count => "u64"
  | .size => "usize"
  | .limits => "struct SandboxConfig"

inductive Problem where
  /-- The settings file is not in the notation of settings files. -/
  | unreadableFile
  | wrongType (found : Setting) (wanted : Wanted)
  /-- A number outside the range of the wanted type. -/
  | outOfRange (found : Int) (wanted : Wanted)

/-- A problem, and the path of keys to the setting that has it. -/
structure LoadError where
  problem : Problem
  path : List String := []

namespace LoadError

def kind (e : LoadError) : String :=
  match e.problem with
  | .unreadableFile => "Message"
  | .wrongType .. => "InvalidType"
  | .outOfRange .. => "InvalidValue"

/-- The wording of an error, where it has a stable one. -/
def detail (e : LoadError) : Option String :=
  match e.problem with
  | .unreadableFile => none
  | .wrongType found wanted =>
    some ("invalid type: found " ++ found.describe ++ ", expected " ++ wanted.name)
  | .outOfRange found wanted =>
    some ("invalid value " ++ (Setting.signed found).describe ++ ", expected " ++ wanted.name)

/-- The same error, one key further out. -/
def under (key : String) (e : LoadError) : LoadError := { e with path := key :: e.path }

end LoadError

inductive File where
  | missing
  | unreadable
  | settings (s : Setting)

/-- A file that holds a setting, if it may. -/
def File.ofSetting (s : Setting) : File := if s.isStorable then .settings s else .unreadable

namespace Setting

def asText? : Setting → Except LoadError String
  | .text s => .ok s
  | s => .error { problem := .wrongType s .text }

def asNumber? (wanted : Wanted) : Setting → Except LoadError Nat
  | .unsigned n => .ok n
  | .signed n => if n < 0 then .error { problem := .outOfRange n wanted } else .ok n.toNat
  | s => .error { problem := .wrongType s wanted }

/-- What a reader makes of the setting at a key; the default if there is none. -/
def atKey (entries : List (String × Setting)) (key : String) (default : α)
    (read : Setting → Except LoadError α) : Except LoadError α :=
  match Dict.find key entries with
  | some s => (read s).mapError (LoadError.under key)
  | none => .ok default

/-- The items of a list as entries whose keys are their places. -/
def numbered (items : List Setting) : List (String × Setting) :=
  items.zipIdx.map fun (s, i) => (NumberLayout.natText i, s)

/-- The limits in a group or list of settings. -/
def asLimits? (s : Setting) : Except LoadError Sandbox.Limits :=
  let read (entries : List (String × Setting)) (instructions memory timeout : String) := do
    let base : Sandbox.Limits := {}
    let maxInstructions ← atKey entries instructions base.maxInstructions (asNumber? .count)
    let maxMemory ← atKey entries memory base.maxMemory (asNumber? .size)
    let timeoutMs ← atKey entries timeout base.timeoutMs (asNumber? .count)
    return { maxInstructions, maxMemory, timeoutMs }
  match s with
  | .group entries => read entries "max_instructions" "max_memory" "timeout_ms"
  | .list items => read (numbered items) "0" "1" "2"
  | s => .error { problem := .wrongType s .limits }

end Setting

def ofSetting? (s : Setting) : Except LoadError Config :=
  let entries := match s with
    | .group entries => entries
    | _ => []
  let base : Config := {}
  do
    let logFilter ← Setting.atKey entries "log_filter" base.logFilter Setting.asText?
    let sandbox ← Setting.atKey entries "sandbox" base.sandbox Setting.asLimits?
    return { logFilter, sandbox }

def toSetting (c : Config) : Setting :=
  .group [("log_filter", .text c.logFilter),
    ("sandbox", .group [("max_instructions", .unsigned c.sandbox.maxInstructions),
      ("max_memory", .unsigned c.sandbox.maxMemory), ("timeout_ms", .unsigned c.sandbox.timeoutMs)])]

def load (file : File) (vars : List (String × String)) : Except LoadError Config :=
  let base := ({} : Config).toSetting
  match file with
  | .unreadable => .error { problem := .unreadableFile }
  | .missing => ofSetting? (base.merge (Environment.settings vars))
  | .settings s => ofSetting? ((base.merge s).merge (Environment.settings vars))

end Config

end ObjectModel
