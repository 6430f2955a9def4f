import ObjectModel.Script.Number
import ObjectModel.Text.Utf8

/-!
Values that are not what is wanted.

A parameter, a key or a result is wanted as something; a `Misfit` says why a value cannot be read as that.
`Value.asName` and `Value.asLabel` read names: any UTF-8 string or number where a name is taken, only a UTF-8
string where one is looked up.
-/

namespace ObjectModel

namespace Script

/-- What a value is wanted as. -/
inductive Wanted where
  /-- A text that is kept, for which a number stands too. -/
  | name
  /-- A text that is only looked at. -/
  | label
  | table
  | object
  | callable
  deriving DecidableEq, Repr

def Wanted.word : Wanted → String
  | .name => "String"
  | .label => "&str"
  | .table => "table"
  | .object => "userdata"
  | .callable => "function"

/-- Why a value is not what is wanted. -/
inductive Misfit where
  | type (found : String) (wanted : Wanted)
  /-- It is a string, but not UTF-8. -/
  | malformed (fault : Text.Utf8Fault) (wanted : Wanted)
  /-- It is a handle of another sort of object. -/
  | handle
  deriving DecidableEq, Repr

namespace Misfit

/-- Nothing was given where an object is wanted as receiver. -/
def noReceiver : Misfit := .type "missing argument" .object

def message : Misfit → String
  | .type found wanted =>
    "error converting Lua " ++ found ++ " to " ++ wanted.word
      ++ (if wanted = .name then " (expected string or number)" else "")
  | .malformed fault wanted =>
    "error converting Lua string to " ++ wanted.word ++ " (" ++ fault.message ++ ")"
  | .handle => "userdata is not expected type"

def ofBytes (bytes : ByteArray) (wanted : Wanted) : Misfit :=
  .malformed ((Text.utf8Fault? bytes).getD ⟨0, none⟩) wanted

end Misfit

end Script

namespace Value

open Script

def utf8 (bytes : ByteArray) (wanted : Wanted) : Except Misfit String :=
  match String.fromUTF8? bytes with
  | some s => .ok s
  | none => .error (.ofBytes bytes wanted)

def asName (v : Value) : Except Misfit String :=
  match v with
  | .str bytes => utf8 bytes .name
  | v =>
    match v.toName? with
    | some name => .ok name
    | none => .error (.type v.typeName .name)

def asLabel (bytes : ByteArray) : Except Misfit String := utf8 bytes .label

end Value

end ObjectModel
