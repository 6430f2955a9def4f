import ObjectModel.Script.Number
import ObjectModel.Script.World

/-!
Operators on plain values.

Integers wrap at 64 bits; division and powers are of doubles; integer quotients and remainders go toward
minus infinity. Bitwise operators want integers or doubles that are integers. What the operators do when an
operand is an instance is not decided here.
-/

namespace ObjectModel.Script

namespace Arithmetic

/-- An operator on integers where both operands are integers, and on doubles otherwise. -/
def mixed (onInts : Int64 → Int64 → Except Fault Value) (onDoubles : Double → Double → Double)
    (a b : Value) : Except Fault Value :=
  match a.toNumber?, b.toNumber? with
  | some (.int m), some (.int n) => onInts m n
  | some x, some y =>
    match x.toDouble?, y.toDouble? with
    | some p, some q => .ok (.float (onDoubles p q))
    | _, _ => .error .notArithmetic
  | _, _ => .error .notArithmetic

def real (f : Double → Double → Double) (a b : Value) : Except Fault Value :=
  match a.toNumber?.bind Value.toDouble?, b.toNumber?.bind Value.toDouble? with
  | some p, some q => .ok (.float (f p q))
  | _, _ => .error .notArithmetic

def integer (v : Value) : Except Fault Int64 :=
  match v with
  | .int n => .ok n
  | .float x =>
    match x.toInt64? with
    | some n => .ok n
    | none => .error .noIntegerForm
  | _ => .error .notArithmetic

def bitwise (f : Int64 → Int64 → Int64) (a b : Value) : Except Fault Value := do
  return .int (f (← integer a) (← integer b))

/-- Shift to the left, or to the right if the amount is negative; vacant bits are zero. -/
def shiftLeft (n k : Int64) : Int64 :=
  if k ≤ -64 || k ≥ 64 then 0
  else if k ≥ 0 then (n.toUInt64 <<< k.toUInt64).toInt64
  else (n.toUInt64 >>> (-k).toUInt64).toInt64

/-- Integer quotient toward minus infinity. -/
def quotient (m n : Int64) : Except Fault Value :=
  if n = 0 then .error .divisionByZero else .ok (.int (.ofInt (Int.fdiv m.toInt n.toInt)))

/-- Remainder with the sign of the divisor. -/
def remainder (m n : Int64) : Except Fault Value :=
  if n = 0 then .error .divisionByZero else .ok (.int (.ofInt (Int.fmod m.toInt n.toInt)))

def join (a b : Value) : Except Fault Value :=
  match a.joinable?, b.joinable? with
  | some s, some t => .ok (.str (s ++ t))
  | _, _ => .error .notJoinable

/-- A power; a square is a product. -/
def power (x y : Double) : Double :=
  if y.toFloat == 2 then x.lift x (x.toFloat * x.toFloat) else x.lift y (x.toFloat.pow y.toFloat)

def compute (h : Hook) (a b : Value) : Except Fault Value :=
  match h with
  | .add => mixed (fun m n => .ok (.int (m + n))) (fun x y => x.lift y (x.toFloat + y.toFloat)) a b
  | .sub => mixed (fun m n => .ok (.int (m - n))) (fun x y => x.lift y (x.toFloat - y.toFloat)) a b
  | .mul => mixed (fun m n => .ok (.int (m * n))) (fun x y => x.lift y (x.toFloat * y.toFloat)) a b
  | .div => real (fun x y => x.lift y (x.toFloat / y.toFloat)) a b
  | .pow => real power a b
  | .idiv => mixed quotient (fun x y => x.lift y (x.toFloat / y.toFloat).floor) a b
  | .mod => mixed remainder Double.floorMod a b
  | .band => bitwise (fun m n => m &&& n) a b
  | .bor => bitwise (fun m n => m ||| n) a b
  | .bxor => bitwise (fun m n => m ^^^ n) a b
  | .shl => bitwise shiftLeft a b
  | .shr => bitwise (fun m n => shiftLeft m (-n)) a b
  | .concat => join a b
  | _ => .error .notArithmetic

def negate (a : Value) : Except Fault Value :=
  match a.toNumber? with
  | some (.int n) => .ok (.int (-n))
  | some (.float x) => .ok (.float x.negate)
  | _ => .error .notArithmetic

def complement (a : Value) : Except Fault Value := do
  return .int (~~~ (← integer a))

end Arithmetic

end ObjectModel.Script
