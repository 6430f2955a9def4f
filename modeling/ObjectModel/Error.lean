import ObjectModel.Entity
import ObjectModel.Hook

/-!
Errors of the object model.

`ObjectError` gives the cause of every failure of a declaration, composition or lookup. The wording is in
one function, `ObjectError.message`; everything else compares causes, never texts.
-/

namespace ObjectModel

inductive ObjectError where
  /-- The scope already binds the name to something else. -/
  | nameCollision (name : String) (existing requested : Kind) (scope : String)
  /-- A class has at most one parent. -/
  | multipleInheritance (cls parent : String)
  /-- A trait is implemented at most once. -/
  | duplicateImplementation (target traitName : String)
  | hookName (cause : HookNameError)
  /-- No entity of this name is visible from the scope. -/
  | unresolvedReference (name : String) (kind : Kind) (scope : String)
  /-- The nearest binding of the name has another kind. -/
  | wrongKind (name : String) (expected found : Kind)
  /-- Answering would have to go round a cycle through this entity. -/
  | circularReference (name : String)
  /-- A value that is no member of this sort. -/
  | invalidMember (owner member reason : String)
  /-- An error that a script raised and that came through the object model. -/
  | script (message : String)
  deriving DecidableEq, Repr

namespace ObjectError

def message : ObjectError → String
  | .nameCollision name existing requested scope =>
    "cannot declare " ++ requested.word ++ " '" ++ name ++ "' in " ++ scope
      ++ ": name is already bound to a " ++ existing.word
  | .multipleInheritance cls parent =>
    "class '" ++ cls ++ "' already extends '" ++ parent ++ "' (multiple inheritance is not supported)"
  | .duplicateImplementation target traitName =>
    "'" ++ target ++ "' already implements trait '" ++ traitName ++ "'"
  | .hookName (.reserved name) => "metamethod '" ++ name ++ "' is reserved and cannot be overridden"
  | .hookName (.unknown name) => "unknown metamethod '" ++ name ++ "'"
  | .unresolvedReference name kind scope =>
    "unresolved " ++ kind.word ++ " reference '" ++ name ++ "' in " ++ scope
  | .wrongKind name expected found =>
    "'" ++ name ++ "' is a " ++ found.word ++ ", expected a " ++ expected.word
  | .circularReference name => "circular reference through '" ++ name ++ "'"
  | .invalidMember owner member reason =>
    "invalid member '" ++ member ++ "' on '" ++ owner ++ "': " ++ reason
  | .script text => "Lua error: runtime error: " ++ text

end ObjectError

end ObjectModel
