import ObjectModel.Decimal.Double

/-!
Reading numbers.

`Double.ofText?` reads decimal notation, with an optional sign, fraction and exponent, and the words for
infinity and for a NaN; `Double.hexadecimal?` reads digits in base sixteen with an exponent of two. `readNat?`
and `readInt?` read plain integers. The nearest double is chosen by exact scaling; exponents far outside the
range are decided before any power is formed.
-/

namespace ObjectModel

def digitValue? (c : Char) : Option Nat :=
  if '0' ≤ c ∧ c ≤ '9' then some (c.toNat - '0'.toNat) else none

def hexDigitValue? (c : Char) : Option Nat :=
  if '0' ≤ c ∧ c ≤ '9' then some (c.toNat - '0'.toNat)
  else if 'a' ≤ c ∧ c ≤ 'f' then some (c.toNat - 'a'.toNat + 10)
  else if 'A' ≤ c ∧ c ≤ 'F' then some (c.toNat - 'A'.toNat + 10)
  else none

/-- The number that a run of decimal digits continues. -/
def readDigits (acc : Nat) : List Char → Option Nat
  | [] => some acc
  | c :: rest =>
    match digitValue? c with
    | some d => readDigits (10 * acc + d) rest
    | none => none

def readNat? (cs : List Char) : Option Nat :=
  if cs.isEmpty then none else readDigits 0 cs

/-- An optional sign, true for minus, and what follows it. -/
def splitSign : List Char → Bool × List Char
  | '-' :: rest => (true, rest)
  | '+' :: rest => (false, rest)
  | cs => (false, cs)

def readInt? (cs : List Char) : Option Int :=
  let (negative, digits) := splitSign cs
  (readNat? digits).map fun n => if negative then -(n : Int) else n

namespace Double

def infinity : Double := ⟨0x7FF0000000000000⟩

/-- The NaN that arithmetic produces. -/
def nan : Double := ⟨0xFFF8000000000000⟩

def negate (x : Double) : Double := ⟨x.bits ^^^ 0x8000000000000000⟩

/-- The double nearest to `m * 10 ^ e`. -/
def ofDecimal (m : Nat) (e : Int) : Double :=
  let size := ((Nat.toDigits 10 m).length : Int) + e
  if m = 0 || size < -400 then ⟨0⟩
  else if size > 400 then infinity
  else ofFloat (Float.ofScientific m (decide (e < 0)) e.natAbs)

/-- The double nearest to `m * 2 ^ e`, of two the one whose last bit is zero. -/
def ofBinary (m : Nat) (e : Int) : Double :=
  let top := (m.log2 : Int) + e
  if m = 0 || top < -1100 then ⟨0⟩
  else if top > 1100 then infinity
  else
    let q := max (top - 52) (-1074)
    let lower := if q ≤ e then m * Nat.pow 2 (e - q).toNat else m / Nat.pow 2 (q - e).toNat
    let twice := if q ≤ e then 0 else 2 * (m % Nat.pow 2 (q - e).toNat)
    let half := if q ≤ e then 1 else Nat.pow 2 (q - e).toNat
    let nearest := if half < twice || (half = twice && lower % 2 = 1) then lower + 1 else lower
    let bits := (q + 1074).toNat * Nat.pow 2 52 + nearest
    if infinity.bits.toNat ≤ bits then infinity else ⟨.ofNat bits⟩

def exponent? : List Char → Option Int
  | [] => some 0
  | c :: rest => if c = 'e' || c = 'E' then readInt? rest else none

def unsigned? (cs : List Char) : Option Double :=
  let whole := cs.takeWhile fun c => (digitValue? c).isSome
  let rest := cs.dropWhile fun c => (digitValue? c).isSome
  let (fraction, tail) := match rest with
    | '.' :: more =>
      (more.takeWhile (fun c => (digitValue? c).isSome), more.dropWhile fun c => (digitValue? c).isSome)
    | _ => ([], rest)
  match readNat? (whole ++ fraction), exponent? tail with
  | some m, some e => some (ofDecimal m (e - fraction.length))
  | _, _ => none

def readHex (acc : Nat) : List Char → Option Nat
  | [] => some acc
  | c :: rest =>
    match hexDigitValue? c with
    | some d => readHex (16 * acc + d) rest
    | none => none

/-- The exponent of two after hexadecimal digits. -/
def binaryExponent? : List Char → Option Int
  | [] => some 0
  | c :: rest => if c = 'p' || c = 'P' then readInt? rest else none

/-- Hexadecimal notation without a sign and without what announces it. -/
def hexadecimal? (cs : List Char) : Option Double :=
  let isHex (c : Char) : Bool := (hexDigitValue? c).isSome
  let whole := cs.takeWhile isHex
  let rest := cs.dropWhile isHex
  let (fraction, tail) := match rest with
    | '.' :: more => (more.takeWhile isHex, more.dropWhile isHex)
    | _ => ([], rest)
  let digits := whole ++ fraction
  if digits.isEmpty then none
  else match readHex 0 digits, binaryExponent? tail with
    | some m, some e => some (ofBinary m (e - 4 * fraction.length))
    | _, _ => none

/-- Read decimal notation, or a word for infinity or a NaN in any case. -/
def ofText? (s : String) : Option Double :=
  let (negative, cs) := splitSign s.toList
  let word := String.ofList (cs.map Char.toLower)
  let x := if word = "inf" || word = "infinity" then some infinity
    else if word = "nan" then some nan
    else unsigned? cs
  x.map fun y => if negative then y.negate else y

end Double

end ObjectModel
