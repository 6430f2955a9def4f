import ObjectModel.Decimal.Read

/-!
Nested arrays: the form in which programs are stored.

A `Datum` is nothing, a truth value, an integer, a text or an array of data. `Datum.read?` reads the written
form, which has brackets, commas, quoted texts with backslash escapes, and blanks between tokens.
-/

namespace ObjectModel.Script

/-- A piece of nested data. -/
inductive Datum where
  | null
  | bool (b : Bool)
  | int (n : Int)
  | text (s : String)
  | array (items : List Datum)

namespace Datum

inductive Token where
  | opening | closing | comma
  | word (d : Datum)

def hexFour? (a b c d : Char) : Option Nat :=
  match hexDigitValue? a, hexDigitValue? b, hexDigitValue? c, hexDigitValue? d with
  | some w, some x, some y, some z => some (((w * 16 + x) * 16 + y) * 16 + z)
  | _, _, _, _ => none

/-- The characters of a text after its opening quote, and what follows its closing quote. A code point
beyond the first plane is written as a pair of halves. -/
def readText (acc : List Char) : List Char → Option (String × List Char)
  | '"' :: rest => some (String.ofList acc.reverse, rest)
  | '\\' :: 'u' :: a :: b :: c :: d :: '\\' :: 'u' :: e :: f :: g :: h :: rest =>
    match hexFour? a b c d, hexFour? e f g h with
    | some high, some low =>
      if 0xD800 ≤ high ∧ high < 0xDC00 ∧ 0xDC00 ≤ low ∧ low < 0xE000 then
        readText (Char.ofNat (0x10000 + (high - 0xD800) * 0x400 + (low - 0xDC00)) :: acc) rest
      else readText (Char.ofNat low :: Char.ofNat high :: acc) rest
    | _, _ => none
  | '\\' :: 'u' :: a :: b :: c :: d :: rest =>
    match hexFour? a b c d with
    | some n => readText (Char.ofNat n :: acc) rest
    | none => none
  | '\\' :: 'n' :: rest => readText ('\n' :: acc) rest
  | '\\' :: 't' :: rest => readText ('\t' :: acc) rest
  | '\\' :: 'r' :: rest => readText ('\r' :: acc) rest
  | '\\' :: 'b' :: rest => readText (Char.ofNat 8 :: acc) rest
  | '\\' :: 'f' :: rest => readText (Char.ofNat 12 :: acc) rest
  | '\\' :: c :: rest => readText (c :: acc) rest
  | c :: rest => readText (c :: acc) rest
  | [] => none

def isWordChar (c : Char) : Bool := c.isAlphanum || c = '-' || c = '+' || c = '.'

def ofWord? (w : String) : Option Datum :=
  if w = "null" then some .null
  else if w = "true" then some (.bool true)
  else if w = "false" then some (.bool false)
  else w.toInt?.map .int

/-- Cut a written form into tokens, at most `bound` of them. -/
def tokens : Nat → List Char → Option (List Token)
  | 0, _ => none
  | _ + 1, [] => some []
  | k + 1, c :: rest =>
    if c = ' ' || c = '\n' || c = '\r' || c = '\t' then tokens k rest
    else if c = '[' then (tokens k rest).map (.opening :: ·)
    else if c = ']' then (tokens k rest).map (.closing :: ·)
    else if c = ',' then (tokens k rest).map (.comma :: ·)
    else if c = '"' then
      match readText [] rest with
      | some (s, after) => (tokens k after).map (.word (.text s) :: ·)
      | none => none
    else
      let word := (c :: rest).takeWhile isWordChar
      match word, ofWord? (String.ofList word) with
      | [], _ => none
      | _, some d => (tokens k ((c :: rest).dropWhile isWordChar)).map (.word d :: ·)
      | _, none => none

/-- Assemble tokens. `unclosed` holds, innermost first, the items in reverse of every array that is not closed
yet; an item is wanted exactly at the start, after an opening bracket and after a comma. -/
def assemble (unclosed : List (List Datum)) (wanted : Bool) : List Token → Option Datum
  | [] => none
  | .opening :: rest => if wanted then assemble ([] :: unclosed) true rest else none
  | .comma :: rest => if wanted then none else assemble unclosed true rest
  | .word d :: rest =>
    if !wanted then none
    else match unclosed with
      | [] => if rest.isEmpty then some d else none
      | items :: outer => assemble ((d :: items) :: outer) false rest
  | .closing :: rest =>
    match unclosed with
    | [] => none
    | items :: outer =>
      if wanted && !items.isEmpty then none
      else
        let d := Datum.array items.reverse
        match outer with
        | [] => if rest.isEmpty then some d else none
        | around :: outer' => assemble ((d :: around) :: outer') false rest

def read? (s : String) : Option Datum :=
  let cs := s.toList
  match tokens (cs.length + 1) cs with
  | some ts => assemble [] true ts
  | none => none

end Datum

end ObjectModel.Script
