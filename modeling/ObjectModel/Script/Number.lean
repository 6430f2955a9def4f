import ObjectModel.Decimal.Layout
import ObjectModel.Decimal.Read
import ObjectModel.Value

/-!
Numbers and texts of the script language.

Numbers are 64-bit integers or doubles. A number and a text convert into each other: a number has one
written form, and a text that is written like a number counts as one in arithmetic. Values compare as keys
and for order by the mathematical value of numbers and by the bytes of strings.
-/

namespace ObjectModel

namespace Double

/-- A double made by an operation of the machine; a NaN operand wins over the NaN that arithmetic makes. -/
def lift (x y : Double) (result : Float) : Double :=
  if result.isNaN then if x.isNaN then x else if y.isNaN then y else nan else ofFloat result

def toInt64? (x : Double) : Option Int64 :=
  match x.toInt? with
  | some n =>
    if Int64.minValue.toInt ≤ n ∧ n ≤ Int64.maxValue.toInt then some (Int64.ofInt n) else none
  | none => none

/-- Remainder with the sign of the divisor. -/
def floorMod (x y : Double) : Double :=
  if x.isNaN then x else if y.isNaN then y
  else if x.isInfinite || y.isZero then nan
  else
    let m := if y.isInfinite then x
      else
        let (a, p) := x.magnitude
        let (b, q) := y.magnitude
        let e := min p q
        let r := (a * Nat.pow 2 (p - e).toNat) % (b * Nat.pow 2 (q - e).toNat)
        let size := ofFloat (Float.scaleB (Float.ofNat r) e)
        if x.isNegative then size.negate else size
    if !m.isZero && m.isNegative != y.isNegative then lift m y (m.toFloat + y.toFloat) else m

end Double

namespace Value

def intText (n : Int64) : String :=
  if n < 0 then "-" ++ NumberLayout.natText n.toInt.natAbs else NumberLayout.natText n.toInt.natAbs

def joinable? : Value → Option ByteArray
  | .str bytes => some bytes
  | .int n => some (intText n).toUTF8
  | .float x => some (NumberLayout.script.write x).toUTF8
  | _ => none

def toName? (v : Value) : Option String :=
  match v with
  | .str bytes => String.fromUTF8? bytes
  | .int n => some (intText n)
  | .float x => some (NumberLayout.script.write x)
  | _ => none

/-- Whether a character is blank around a written number. -/
def isBlank (c : Char) : Bool := c = ' ' || (9 ≤ c.toNat && c.toNat ≤ 13)

/-- The number written by a text, blanks around it apart. Hexadecimal integers wrap; decimal ones that are too
large are doubles. -/
def numberOfText? (s : String) : Option Value :=
  let cs := ((s.toList.dropWhile isBlank).reverse.dropWhile isBlank).reverse
  let (negative, digits) := splitSign cs
  match digits with
  | '0' :: x :: h :: hs =>
    if x = 'x' || x = 'X' then
      match Double.readHex 0 (h :: hs) with
      | some n => some (.int (Int64.ofInt (if negative then -(n : Int) else n)))
      | none => (Double.hexadecimal? (h :: hs)).map (real negative)
    else decimal negative digits
  | _ => decimal negative digits
where
  /-- A magnitude with its sign. -/
  real (negative : Bool) (x : Double) : Value := .float (if negative then x.negate else x)
  /-- The number written by decimal digits after a sign. -/
  decimal (negative : Bool) (digits : List Char) : Option Value :=
    let double := (Double.unsigned? digits).map (real negative)
    match readNat? digits with
    | some n =>
      let signed : Int := if negative then -(n : Int) else n
      if Int64.minValue.toInt ≤ signed ∧ signed ≤ Int64.maxValue.toInt then some (.int (Int64.ofInt signed))
      else double
    | none => double

/-- The number that a value is or is written as. -/
def toNumber? : Value → Option Value
  | .int n => some (.int n)
  | .float x => some (.float x)
  | .str bytes => (String.fromUTF8? bytes).bind numberOfText?
  | _ => none

def toDouble? : Value → Option Double
  | .int n => some (.ofInt64 n)
  | .float x => some x
  | _ => none

def toInteger? : Value → Option Int64
  | .int n => some n
  | .float x => x.toInt64?
  | _ => none

/-- A value as a key: a double that is an integer is that integer. -/
def asKey (v : Value) : Value :=
  match v with
  | .float x =>
    match x.toInt64? with
    | some n => .int n
    | none => .float x
  | v => v

theorem asKey_asKey (v : Value) : v.asKey.asKey = v.asKey := by
  cases v with
  | float x => cases h : x.toInt64? <;> simp [asKey, h]
  | _ => rfl

/-- Whether a value cannot be a key. -/
def isBadKey : Value → Bool
  | .nil => true
  | .float x => x.isNaN
  | _ => false

/-- Equality without any hook: numbers by value, everything else by identity. -/
def rawEqual (a b : Value) : Bool :=
  match a, b with
  | .float x, .float y => x.toFloat == y.toFloat
  | .int n, .float x | .float x, .int n => decide (x.toInt64? = some n)
  | a, b => decide (a = b)

/-- How an integer compares with a double that is not a NaN. -/
def compareMixed (n : Int64) (x : Double) : Ordering :=
  if x.isInfinite then if x.isNegative then .gt else .lt
  else (x.compareInt n.toInt).swap

/-- Lexicographic order of bytes. -/
def bytesLess : List UInt8 → List UInt8 → Bool
  | _, [] => false
  | [], _ :: _ => true
  | a :: as, b :: bs => a < b || (a == b && bytesLess as bs)

/-- Whether the first value is less than the second, for two numbers or two strings. -/
def less? (a b : Value) : Option Bool :=
  match a, b with
  | .int m, .int n => some (decide (m < n))
  | .float x, .float y => some (decide (x.toFloat < y.toFloat))
  | .int n, .float x => some (!x.isNaN && compareMixed n x == .lt)
  | .float x, .int n => some (!x.isNaN && compareMixed n x == .gt)
  | .str s, .str t => some (bytesLess s.toList t.toList)
  | _, _ => none

/-- Whether the first value is at most the second, for two numbers or two strings. -/
def lessEqual? (a b : Value) : Option Bool :=
  match a, b with
  | .int m, .int n => some (decide (m ≤ n))
  | .float x, .float y => some (decide (x.toFloat ≤ y.toFloat))
  | .int n, .float x => some (!x.isNaN && compareMixed n x != .gt)
  | .float x, .int n => some (!x.isNaN && compareMixed n x != .lt)
  | .str s, .str t => some (!bytesLess t.toList s.toList)
  | _, _ => none

end Value

end ObjectModel
