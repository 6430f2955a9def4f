/-!
Double-precision numbers as the words that encode them.

A `Double` is the 64-bit pattern of a number, so that equality is decidable and two numbers are equal
exactly when they have the same encoding. `Double.decode` reads a finite pattern as an integer times a
power of two; exact arithmetic on numbers goes through it, the rest through the machine's operations.
-/

namespace ObjectModel

/-- A double-precision number, given by its encoding. -/
structure Double where
  bits : UInt64
  deriving DecidableEq, Repr, Inhabited, Hashable

namespace Double

def ofFloat (x : Float) : Double := ⟨x.toBits⟩

def toFloat (x : Double) : Float := Float.ofBits x.bits

def isNegative (x : Double) : Bool := x.bits >>> 63 = 1

def exponentBits (x : Double) : Nat := ((x.bits >>> 52) &&& 0x7FF).toNat

def fractionBits (x : Double) : Nat := (x.bits &&& 0xFFFFFFFFFFFFF).toNat

def isFinite (x : Double) : Bool := x.exponentBits ≠ 2047

def isNaN (x : Double) : Bool := x.exponentBits = 2047 && x.fractionBits ≠ 0

def isInfinite (x : Double) : Bool := x.exponentBits = 2047 && x.fractionBits = 0

def isZero (x : Double) : Bool := x.exponentBits = 0 && x.fractionBits = 0

/-- Magnitude of a finite number as `m * 2 ^ q`. -/
def magnitude (x : Double) : Nat × Int :=
  if x.exponentBits = 0 then (x.fractionBits, -1074)
  else (x.fractionBits + Nat.pow 2 52, (x.exponentBits : Int) - 1075)

def toInt? (x : Double) : Option Int :=
  if !x.isFinite then none
  else
    let (m, q) := x.magnitude
    let sign : Int := if x.isNegative then -1 else 1
    if 0 ≤ q then some (sign * (m * Nat.pow 2 q.toNat : Nat))
    else
      let d := Nat.pow 2 (-q).toNat
      if m % d = 0 then some (sign * (m / d : Nat)) else none

/-- Integer part, toward minus infinity, of a finite number. -/
def floor? (x : Double) : Option Int :=
  if !x.isFinite then none
  else
    let (m, q) := x.magnitude
    let sign : Int := if x.isNegative then -1 else 1
    if 0 ≤ q then some (sign * (m * Nat.pow 2 q.toNat : Nat))
    else some (Int.fdiv (sign * m) (Nat.pow 2 (-q).toNat : Nat))

def ofInt64 (n : Int64) : Double := ofFloat n.toFloat

/-- Compare a finite number with an integer, exactly. -/
def compareInt (x : Double) (n : Int) : Ordering :=
  let (m, q) := x.magnitude
  let sign : Int := if x.isNegative then -1 else 1
  if 0 ≤ q then compare (sign * (m * Nat.pow 2 q.toNat : Nat)) n
  else compare (sign * m) (n * (Nat.pow 2 (-q).toNat : Nat))

end Double

end ObjectModel
