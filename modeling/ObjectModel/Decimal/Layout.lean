import ObjectModel.Decimal.Shortest

/-!
Written forms of numbers.

A `NumberLayout` fixes what one written form of numbers decides: how many digits, where positional notation
ends, what an exponent looks like. `NumberLayout.write` follows it. The layouts this library writes are
values of the record at the end of the module.
-/

namespace ObjectModel

/-- The decisions of one written form of numbers. -/
structure NumberLayout where
  /-- Significant digits at most; all that are needed to read the number back if none. -/
  places : Option Nat
  /-- Least exponent of the leading digit that is written positionally; every one if none. -/
  lowest : Option Int
  /-- Greatest exponent of the leading digit that is written positionally; every one if none. -/
  highest : Option Int
  /-- Whether a positional integer ends in `.0`. -/
  keepPoint : Bool
  signExponent : Bool
  /-- Least number of digits of an exponent. -/
  exponentWidth : Nat
  signNaN : Bool

namespace NumberLayout

def zeros (n : Nat) : String := String.ofList (List.replicate n '0')

def natText (n : Nat) : String := String.ofList (Nat.toDigits 10 n)

/-- Digits with a decimal point after the first `point` of them. -/
def positional (layout : NumberLayout) (digits : List Char) (point : Int) : String :=
  if point ≤ 0 then "0." ++ zeros (-point).toNat ++ String.ofList digits
  else
    let p := point.toNat
    if digits.length ≤ p then
      String.ofList digits ++ zeros (p - digits.length) ++ (if layout.keepPoint then ".0" else "")
    else String.ofList (digits.take p) ++ "." ++ String.ofList (digits.drop p)

/-- Digits with the exponent of the leading one written out. -/
def scientific (layout : NumberLayout) (digits : List Char) (e : Int) : String :=
  let fraction := match digits.drop 1 with
    | [] => ""
    | rest => "." ++ String.ofList rest
  let sign := if e < 0 then "-" else if layout.signExponent then "+" else ""
  let power := natText e.natAbs
  String.ofList (digits.take 1) ++ fraction ++ "e" ++ sign
    ++ zeros (layout.exponentWidth - power.length) ++ power

def magnitude (layout : NumberLayout) (d : Digits) : String :=
  let digits := Nat.toDigits 10 d.coefficient
  let e := d.exponent + digits.length - 1
  let low := match layout.lowest with
    | none => true
    | some l => decide (l ≤ e)
  let high := match layout.highest with
    | none => true
    | some h => decide (e ≤ h)
  if low && high then layout.positional digits (e + 1) else layout.scientific digits e

def write (layout : NumberLayout) (x : Double) : String :=
  let sign := if x.isNegative then "-" else ""
  if x.isNaN then (if layout.signNaN then sign else "") ++ "nan"
  else if x.isInfinite then sign ++ "inf"
  else if x.isZero then sign ++ (if layout.keepPoint then "0.0" else "0")
  else
    let (m, q) := x.magnitude
    sign ++ layout.magnitude (match layout.places with
      | some n => Digits.rounded n m q
      | none => Digits.shortest m q)

/-- Numbers as scripts print them: fourteen digits, and never like an integer. -/
def script : NumberLayout where
  places := some 14
  lowest := some (-4)
  highest := some 13
  keepPoint := true
  signExponent := true
  exponentWidth := 2
  signNaN := true

/-- Numbers as results are reported: digits that read back, positional from `1e-4` up to below `1e16`. -/
def report : NumberLayout where
  places := none
  lowest := some (-4)
  highest := some 15
  keepPoint := true
  signExponent := false
  exponentWidth := 1
  signNaN := false

/-- Numbers in messages about a configuration: digits that read back, always positional. -/
def plain : NumberLayout where
  places := none
  lowest := none
  highest := none
  keepPoint := false
  signExponent := false
  exponentWidth := 1
  signNaN := false

end NumberLayout

end ObjectModel
