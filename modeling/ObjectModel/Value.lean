import ObjectModel.Entity
import ObjectModel.Decimal.Double

/-!
Values of the script language.

Numbers, truth values and strings are held in the value; tables, functions made by a script and objects
are numbers of places in a heap, so that two values are the same exactly when they are equal. Strings are
byte sequences: a name is one that reads as UTF-8.
-/

namespace ObjectModel

/-- The methods by which a script configures the entity it holds. -/
inductive ConfigMethod where
  | static | method | hooks | implement | constructor | inherit
  | includeAll | declare (kind : Kind)
  deriving DecidableEq, Repr, Hashable

namespace ConfigMethod

def name : ConfigMethod → String
  | .static => "static"
  | .method => "method"
  | .hooks => "meta"
  | .implement => "implements"
  | .constructor => "constructor"
  | .inherit => "extends"
  | .includeAll => "include"
  | .declare .cls => "Class"
  | .declare .trait => "Trait"
  | .declare .space => "Namespace"

/-- The name that messages call the method by: that of its receiver's kind comes first. -/
def fullName (kind : Kind) (m : ConfigMethod) : String := (declare kind).name ++ "." ++ m.name

def ofKind : Kind → List ConfigMethod
  | .cls => [.static, .method, .hooks, .implement, .constructor, .inherit]
  | .trait => [.static, .method, .hooks, .implement]
  | .space => [.includeAll, .declare .cls, .declare .trait, .declare .space]

def find? (kind : Kind) (name : String) : Option ConfigMethod :=
  (ofKind kind).find? fun m => m.name = name

end ConfigMethod

/-- Functions every script can call without having made them. -/
inductive Builtin where
  | declare (kind : Kind)
  | print | tostring | type | select | rawequal
  /-- Call a function and answer its error instead of failing. -/
  | attempt
  /-- A function of the standard library that is present but not offered by this dialect. -/
  | library (name : String)
  deriving DecidableEq, Repr, Hashable

/-- A function. Those made by a running script are told apart by their place in the heap. -/
inductive Func where
  | builtin (b : Builtin)
  | config (kind : Kind) (m : ConfigMethod)
  | made (id : Nat)
  deriving DecidableEq, Repr, Hashable

instance : Inhabited Func := ⟨.made 0⟩

/-- Equality of byte sequences, the same whatever is imported. -/
local instance (priority := high) sameBytes : DecidableEq ByteArray := ByteArray.instDecidableEq

inductive Value where
  | nil
  | bool (b : Bool)
  | int (n : Int64)
  | float (x : Double)
  | str (bytes : ByteArray)
  | table (id : Nat)
  | func (f : Func)
  | object (id : Nat)
  deriving DecidableEq, Hashable

instance : Inhabited Value := ⟨.nil⟩

namespace Value

def text (s : String) : Value := .str s.toUTF8

/-- Everything but nil and false counts as true. -/
def truthy : Value → Bool
  | .nil | .bool false => false
  | _ => true

def typeWord : Value → String
  | .nil => "nil"
  | .bool _ => "boolean"
  | .int _ | .float _ => "number"
  | .str _ => "string"
  | .table _ => "table"
  | .func _ => "function"
  | .object _ => "userdata"

/-- The type as messages about invalid members give it; integers are told apart from other numbers. -/
def typeName : Value → String
  | .int _ => "integer"
  | v => v.typeWord

end Value

end ObjectModel
