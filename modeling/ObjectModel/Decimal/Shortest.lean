import ObjectModel.Decimal.Double

/-!
Decimal digits of a double.

`Digits.shortest` gives the fewest significant digits that read back as the same double, and of those the
ones nearest to it, with ties going up. `Digits.rounded` gives a fixed number of significant digits, the
exact value rounded to nearest with ties to the even neighbour. Both compare exact integers; no machine
arithmetic is involved.
-/

namespace ObjectModel

/-- A decimal magnitude `coefficient * 10 ^ exponent`. -/
structure Digits where
  coefficient : Nat
  exponent : Int
  deriving DecidableEq, Repr

namespace Digits

/-- A positive magnitude as an exact quotient. -/
structure Quotient where
  num : Nat
  den : Nat

def Quotient.scaled (m : Nat) (q : Int) : Quotient :=
  if 0 ≤ q then ⟨m * Nat.pow 2 q.toNat, 1⟩ else ⟨m, Nat.pow 2 (-q).toNat⟩

def Quotient.shift (x : Quotient) (e : Int) : Quotient :=
  if 0 ≤ e then ⟨x.num, x.den * Nat.pow 10 e.toNat⟩ else ⟨x.num * Nat.pow 10 (-e).toNat, x.den⟩

def width (n : Nat) : Nat := (Nat.toDigits 10 n).length

/-- Exponent of the leading decimal digit of a positive double's magnitude. Every such magnitude is more
than `10 ^ (-400)`. -/
def leading (x : Quotient) : Int := (width (x.num * Nat.pow 10 400 / x.den) : Int) - 401

def strip (d : Digits) : Nat → Digits
  | 0 => d
  | k + 1 =>
    if d.coefficient % 10 = 0 then strip ⟨d.coefficient / 10, d.exponent + 1⟩ k else d

def roundEven (x : Quotient) : Nat :=
  let lower := x.num / x.den
  let twice := 2 * (x.num % x.den)
  if twice < x.den then lower
  else if twice > x.den then lower + 1
  else if lower % 2 = 0 then lower else lower + 1

def roundUp (x : Quotient) : Nat := (2 * x.num + x.den) / (2 * x.den)

/-- The magnitude `m * 2 ^ q`, positive, rounded to `places` significant digits. -/
def rounded (places : Nat) (m : Nat) (q : Int) : Digits :=
  let x := Quotient.scaled m q
  let e := leading x + 1 - places
  strip ⟨roundEven (x.shift e), e⟩ places

/-- Whether `c * 10 ^ e` lies between two quotients; the ends count if `closed`. -/
def between (low high : Quotient) (closed : Bool) (c : Nat) (e : Int) : Bool :=
  let l := low.shift e
  let h := high.shift e
  if closed then decide (l.num ≤ c * l.den) && decide (c * h.den ≤ h.num)
  else decide (l.num < c * l.den) && decide (c * h.den < h.num)

/-- The better of the two neighbours of `x` on the grid `10 ^ e`, among those that read back. -/
def pick (x low high : Quotient) (closed : Bool) (e : Int) : Option Nat :=
  let y := x.shift e
  let lower := y.num / y.den
  let below := between low high closed lower e
  let above := between low high closed (lower + 1) e
  if below && above then some (roundUp y)
  else if below then some lower
  else if above then some (lower + 1)
  else none

/-- Try grids from `places` digits on, at most `bound` of them. -/
def search (x low high : Quotient) (closed : Bool) (top : Int) : Nat → Nat → Digits
  | places, 0 => ⟨roundUp (x.shift (top + 1 - places)), top + 1 - places⟩
  | places, k + 1 =>
    match pick x low high closed (top + 1 - places) with
    | some c => ⟨c, top + 1 - places⟩
    | none => search x low high closed top (places + 1) k

/-- The shortest digits that read back as the positive double of magnitude `m * 2 ^ q`. The gap below a
power of two is half the gap above it, except at the smallest exponent. -/
def shortest (m : Nat) (q : Int) : Digits :=
  let x := Quotient.scaled m q
  let narrow := m = Nat.pow 2 52 ∧ q ≠ -1074
  let low := Quotient.scaled (4 * m - (if narrow then 1 else 2)) (q - 2)
  let high := Quotient.scaled (4 * m + 2) (q - 2)
  strip (search x low high (m % 2 = 0) (leading x) 1 17) 400

end Digits

end ObjectModel
