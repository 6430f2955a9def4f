import ObjectModel.Decimal.Read

/-!
Quoted texts in settings.

A text between double quotes may hold any character but controls; a backslash introduces a quote, a
backslash, a control by its letter, or a character by four or eight hexadecimal digits.
-/

namespace ObjectModel.Config

def escaped? (c : Char) : Option Char :=
  if c = '"' then some '"'
  else if c = '\\' then some '\\'
  else if c = 'b' then some (Char.ofNat 8)
  else if c = 't' then some '\t'
  else if c = 'n' then some '\n'
  else if c = 'f' then some (Char.ofNat 12)
  else if c = 'r' then some '\r'
  else none

/-- Whether a character may stand in a quoted text as it is. -/
def isPlain (c : Char) : Bool := c = '\t' || (32 ≤ c.toNat && c.toNat ≠ 127)

def isScalar (n : Nat) : Bool := n < 0xD800 || (0xDFFF < n && n < 0x110000)

inductive QuoteState where
  | plain
  | afterBackslash
  /-- So many hexadecimal digits are still to come. -/
  | digits (left value : Nat)

/-- Read a quoted text after its opening quote; answers it and what follows its closing quote. -/
def readQuoted (acc : List Char) : QuoteState → List Char → Option (String × List Char)
  | _, [] => none
  | .plain, c :: rest =>
    if c = '"' then some (String.ofList acc.reverse, rest)
    else if c = '\\' then readQuoted acc .afterBackslash rest
    else if isPlain c then readQuoted (c :: acc) .plain rest
    else none
  | .afterBackslash, c :: rest =>
    if c = 'u' then readQuoted acc (.digits 4 0) rest
    else if c = 'U' then readQuoted acc (.digits 8 0) rest
    else match escaped? c with
      | some x => readQuoted (x :: acc) .plain rest
      | none => none
  | .digits left value, c :: rest =>
    match hexDigitValue? c with
    | none => none
    | some d =>
      let n := 16 * value + d
      if 1 < left then readQuoted acc (.digits (left - 1) n) rest
      else if isScalar n then readQuoted (Char.ofNat n :: acc) .plain rest
      else none

def quoted? (cs : List Char) : Option (String × List Char) := readQuoted [] .plain cs

end ObjectModel.Config
