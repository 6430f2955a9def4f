import ObjectModel.Config.Quoted
import ObjectModel.Config.Setting
import ObjectModel.Text.Blank

/-!
Inline settings: the notation for the value of one variable.

A value is a truth value, a group in braces, a list in brackets, a quoted text, a text of one character
between single quotes, or a bare word up to the next separator; a bare word is a number if it reads as one. A
text that is not a value from beginning to end stands for itself, blanks included.
-/

namespace ObjectModel.Config

namespace Inline

def isSpace (c : Char) : Bool :=
  c = ' ' || c = '\t' || c = '\n' || c = '\r' || c = Char.ofNat 12

def isSeparator (c : Char) : Bool := c = ',' || c = '{' || c = '}' || c = '[' || c = ']'

def isKeyChar (c : Char) : Bool := c.isAlphanum || c = '_' || c = '-'

def after? : List Char → List Char → Option (List Char)
  | [], cs => some cs
  | _ :: _, [] => none
  | x :: xs, c :: cs => if x = c then after? xs cs else none

def skip (cs : List Char) : List Char := cs.dropWhile isSpace

def unsigned? (cs : List Char) : Option Nat :=
  let digits := match cs with
    | '+' :: rest => rest
    | _ => cs
  (readNat? digits).filter fun n => n < Nat.pow 2 64

def signed? (cs : List Char) : Option Int :=
  (readInt? cs).filter fun n => decide (Int64.minValue.toInt ≤ n ∧ n ≤ Int64.maxValue.toInt)

/-- A bare word: a number with a point, an unsigned or signed integer, or a text. -/
def ofWord (cs : List Char) : Setting :=
  let word := Text.trim cs
  let real := if word.contains '.' then Double.ofText? (String.ofList word) else none
  match real, unsigned? word, signed? word with
  | some x, _, _ => .float x
  | none, some n, _ => .unsigned n
  | none, none, some n => .signed n
  | none, none, none => .text (String.ofList word)

/-- The longest beginning of a text that fits into so many bytes. -/
def fitting (bytes : Nat) : List Char → List Char
  | [] => []
  | c :: rest => if c.utf8Size ≤ bytes then c :: fitting (bytes - c.utf8Size) rest else []

/-- Read a quoted text after its opening quote. Where it has a backslash, what stands before the first one is
cut to as many bytes as it has characters. -/
def quotedText? (cs : List Char) : Option (String × List Char) :=
  (quoted? cs).map fun (text, rest) =>
    let opening := cs.takeWhile fun c => c ≠ '"' && c ≠ '\\'
    if (cs.drop opening.length).head? = some '\\' then
      (String.ofList (fitting opening.length opening ++ text.toList.drop opening.length), rest)
    else (text, rest)

def key? (cs : List Char) : Option (String × List Char) :=
  match cs with
  | '"' :: rest => quotedText? rest
  | _ =>
    match cs.takeWhile isKeyChar with
    | [] => none
    | k => some (String.ofList k, cs.dropWhile isKeyChar)

mutual

/-- Read a value and what follows it, with so much fuel. -/
def value? (fuel : Nat) (text : List Char) : Option (Setting × List Char) :=
  match fuel with
  | 0 => none
  | n + 1 =>
    let cs := skip text
    let found := match after? "true".toList cs, after? "false".toList cs with
      | some rest, _ => some (Setting.bool true, rest)
      | none, some rest => some (Setting.bool false, rest)
      | none, none =>
        match cs with
        | '{' :: rest => (entries? n rest).map fun (es, more) => (.group es, more)
        | '[' :: rest => (items? n rest).map fun (ss, more) => (.list ss, more)
        | '"' :: rest => (quotedText? rest).map fun (s, more) => (.text s, more)
        | '\'' :: rest =>
          match rest with
          | c :: '\'' :: more => some (.text c.toString, more)
          | _ => none
        | _ => some (ofWord (cs.takeWhile fun c => !isSeparator c), cs.dropWhile fun c => !isSeparator c)
    found.map fun (s, rest) => (s, skip rest)

def items? (fuel : Nat) (cs : List Char) : Option (List Setting × List Char) :=
  match fuel with
  | 0 => none
  | n + 1 =>
    match cs with
    | ']' :: rest => some ([], rest)
    | _ =>
      match value? n cs with
      | some (s, ',' :: rest) => (items? n rest).map fun (ss, more) => (s :: ss, more)
      | some (s, ']' :: rest) => some ([s], rest)
      | _ => none

/-- Read the entries of a group and its closing brace. A key that comes again takes the later value. -/
def entries? (fuel : Nat) (cs : List Char) : Option (List (String × Setting) × List Char) :=
  match fuel with
  | 0 => none
  | n + 1 =>
    match cs with
    | '}' :: rest => some ([], rest)
    | _ =>
      match key? (skip cs) with
      | none => none
      | some (k, afterKey) =>
        match skip afterKey with
        | '=' :: written =>
          match value? n (skip written) with
          | some (s, ',' :: rest) =>
            (entries? n rest).map fun (es, more) =>
              (if es.any fun e => e.1 = k then es else (k, s) :: es, more)
          | some (s, '}' :: rest) => some ([(k, s)], rest)
          | _ => none
        | _ => none

end

end Inline

def Setting.ofText (s : String) : Setting :=
  let cs := s.toList
  match Inline.value? (2 * cs.length + 2) cs with
  | some (v, []) => v
  | _ => .text s

end ObjectModel.Config
