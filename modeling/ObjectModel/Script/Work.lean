import ObjectModel.Script.Program

/-!
How much work a program is.

Work is counted in steps. An operator, a member access, a call, a new function or table, a write and a round of
a loop take a step each. A constant or a variable takes one only where it is copied: as an argument, as a value
that is given back or declared, and on either side of a join. What is computed from number constants alone is
a constant.
-/

namespace ObjectModel.Script

namespace Expr

/-- Whether an expression is a number constant or is computed from number constants. -/
def isNumeral : Expr → Bool
  | .int _ | .float _ => true
  | .first e | .unary _ e => e.isNumeral
  | .binary (.compute _) a b => a.isNumeral && b.isNumeral
  | _ => false

/-- Whether an expression is a constant or a variable. -/
def isLeaf : Expr → Bool
  | .nil | .bool _ | .str _ | .var _ => true
  | .first e => e.isLeaf
  | e => e.isNumeral

/-- Steps that copying the value of an expression takes. -/
def copyWork (e : Expr) : Nat := if e.isLeaf then 1 else 0

/-- Steps that an expression takes beside its parts and apart from calls. -/
def work (e : Expr) : Nat :=
  match e with
  | .function .. | .table _ | .index .. => 1
  | .unary .. => if e.isNumeral then 0 else 1
  | .binary .both _ _ | .binary .either _ _ => 0
  | .binary (.compute .concat) a b => 1 + a.copyWork + b.copyWork
  | .binary .. => if e.isNumeral then 0 else 1
  | _ => 0

/-- Steps that a call of what an expression gives takes beside its arguments. -/
def callWork (f : Expr) : Nat := 1 + f.copyWork

end Expr

/-- Steps that the call of a member takes beside its arguments. -/
def sendWork : Nat := 2

/-- Steps that a statement takes beside its parts. -/
def Stmt.work : Stmt → Nat
  | .assign _ e => e.copyWork
  | .store .. => 1
  | .branch c _ _ => if c.isLeaf then 0 else 1
  | _ => 0

end ObjectModel.Script
