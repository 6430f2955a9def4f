import ObjectModel.Script.World

/-!
Reports of failures.

`Cause.kind` is the word by which a failure is classified, `Cause.detail` the text that belongs to it where
there is a stable one, and `Cause.text` the line that a person is shown.
-/

namespace ObjectModel

def ObjectError.kind : ObjectError → String
  | .nameCollision .. => "NameCollision"
  | .multipleInheritance .. => "MultipleInheritance"
  | .duplicateImplementation .. => "DuplicateImplementation"
  | .hookName (.reserved _) => "ReservedMetamethod"
  | .hookName (.unknown _) => "UnknownMetamethod"
  | .unresolvedReference .. => "UnresolvedReference"
  | .wrongKind .. => "WrongKind"
  | .circularReference _ => "CircularReference"
  | .invalidMember .. => "InvalidMember"
  | .script _ => "ScriptError"

namespace Script

namespace Cause

def kind : Cause → String
  | .object e => e.kind
  | .raised _ => "ScriptError"
  | .missingHook .. | .noInstance _ | .fault _ | .interrupted _ | .outOfFuel => "RuntimeError"
  | .badArgument .. | .badReceiver .. => "BadArgument"
  | .misfit .handle => "UserDataTypeMismatch"
  | .misfit _ => "FromLuaConversionError"
  | .syntaxError => "SyntaxError"
  | .outOfMemory => "MemoryError"

/-- The text that belongs to a failure, where it has a stable one. -/
def detail : Cause → Option String
  | .object e => some e.message
  | .raised message => some message
  | .missingHook h name =>
    some ("attempt to use '" ++ h.name ++ "' on an instance of '" ++ name
      ++ "', which defines no such hook")
  | .noInstance h => some ("'" ++ h.name ++ "' dispatched without an instance operand")
  | .badArgument position .. => some ("#" ++ toString position)
  | .badReceiver .. => some "#1"
  | _ => none

/-- The line that a person is shown. -/
def text : Cause → String
  | .object e => e.message
  | .syntaxError => "syntax error"
  | .outOfMemory => "memory error: not enough memory"
  | .badArgument position callee why =>
    let of := match callee with
      | some name => " to \x60" ++ name ++ "\x60"
      | none => ""
    "bad argument #" ++ toString position ++ of ++ ": " ++ why.message
  | .badReceiver callee why => "bad argument \x60self\x60 to \x60" ++ callee ++ "\x60: " ++ why.message
  | .misfit why => why.message
  | .fault _ | .interrupted _ | .outOfFuel => "runtime error"
  | .raised message => "runtime error: " ++ message
  | .missingHook h name => "runtime error: " ++ ((missingHook h name).detail.getD "")
  | .noInstance h => "runtime error: " ++ ((noInstance h).detail.getD "")

end Cause

end Script

end ObjectModel
