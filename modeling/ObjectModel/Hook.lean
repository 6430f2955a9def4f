/-!
Operator hooks.

A class or trait may define a function for each operator a script can apply to an instance. `Hook` lists
the operators, `Hook.all` fixes their order, and `Hook.ofName` reads a hook's name and says why a name is
refused. The lemma `ofName_name` says that every hook is read back from its own name.
-/

namespace ObjectModel

/-- An operator that classes and traits may define for their instances. -/
inductive Hook where
  | add | sub | mul | div | mod | pow | unm | idiv
  | band | bor | bxor | bnot | shl | shr
  | concat | len | eq | lt | le | call | tostring
  deriving DecidableEq, Repr, Inhabited

inductive HookNameError where
  /-- Member access belongs to the object model itself and is never a hook. -/
  | reserved (name : String)
  | unknown (name : String)
  deriving DecidableEq, Repr

namespace Hook

/-- Every hook, in wiring order. -/
def all : List Hook :=
  [.add, .sub, .mul, .div, .mod, .pow, .unm, .idiv, .band, .bor, .bxor, .bnot, .shl, .shr,
   .concat, .len, .eq, .lt, .le, .call, .tostring]

def name : Hook → String
  | .add => "__add"
  | .sub => "__sub"
  | .mul => "__mul"
  | .div => "__div"
  | .mod => "__mod"
  | .pow => "__pow"
  | .unm => "__unm"
  | .idiv => "__idiv"
  | .band => "__band"
  | .bor => "__bor"
  | .bxor => "__bxor"
  | .bnot => "__bnot"
  | .shl => "__shl"
  | .shr => "__shr"
  | .concat => "__concat"
  | .len => "__len"
  | .eq => "__eq"
  | .lt => "__lt"
  | .le => "__le"
  | .call => "__call"
  | .tostring => "__tostring"

def title : Hook → String
  | .add => "Add"
  | .sub => "Sub"
  | .mul => "Mul"
  | .div => "Div"
  | .mod => "Mod"
  | .pow => "Pow"
  | .unm => "Unm"
  | .idiv => "IDiv"
  | .band => "BAnd"
  | .bor => "BOr"
  | .bxor => "BXor"
  | .bnot => "BNot"
  | .shl => "Shl"
  | .shr => "Shr"
  | .concat => "Concat"
  | .len => "Len"
  | .eq => "Eq"
  | .lt => "Lt"
  | .le => "Le"
  | .call => "Call"
  | .tostring => "ToString"

/-- Member access is the object model's own and may not be defined. -/
def reservedNames : List String := ["__index", "__newindex"]

/-- A binary hook may be found on either operand. -/
def isBinary : Hook → Bool
  | .unm | .bnot | .len | .call | .tostring => false
  | _ => true

def isComparison : Hook → Bool
  | .eq | .lt | .le => true
  | _ => false

/-- How many leading arguments are consulted for a definition of the hook. -/
def arity (h : Hook) : Nat := if h.isBinary then 2 else 1

/-- Read the name of a hook. Reserved names are told apart from unknown ones. -/
def ofName (s : String) : Except HookNameError Hook :=
  if s ∈ reservedNames then .error (.reserved s)
  else match all.find? (fun h => h.name = s) with
    | some h => .ok h
    | none => .error (.unknown s)

theorem ofName_name (h : Hook) : ofName h.name = .ok h := by
  cases h <;> rfl

end Hook

end ObjectModel
